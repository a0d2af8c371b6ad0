import BrokerCluster.Proofs.Messaging.Settling
import BrokerCluster.Proofs.Monitoring.Counts
import BrokerCluster.Proofs.Monitoring.Datagrams

/-!
# What is counted of a run

A service reports the key of a publish exactly when it answers `ok`, and nothing else
that happens is reported. The datagrams may arrive in any order; if each arrives once,
a monitoring server counts every such publish whose notice can be sent, under the key
that it sees.
-/
namespace BrokerCluster.Messaging

open Monitoring Text

/-- The key of a command that is a publish and is answered `ok`, whether or not the client still
reads the answer. -/
def Session.publishedKey? (registry : Routing.Registry) (session : Session) (line : String) :
    Option String :=
  match Command.ofLine line with
  | .publish key _ =>
    if (session.process registry line).reply = some okReply then some key else none
  | _ => none

/-- A publish is reported if and only if it is answered `ok`. -/
theorem Session.published_process (registry : Routing.Registry) (session : Session)
    (line : String) :
    (session.process registry line).published = session.publishedKey? registry line := by
  unfold publishedKey? process
  split
  -- A subscribed session publishes nothing and answers nothing.
  · cases Command.ofLine line <;> rfl
  · cases Command.ofLine line with
    | publish key message =>
      simp only [perform_publish_reply]
      cases hexchange : session.exchange with
      | none => simp [perform, hexchange, refuse]
      | some exchange => simp [perform, hexchange]
    | exchange kind name =>
      simp only [perform]
      split
      · rfl
      · split <;> rfl
    | bind key =>
      simp only [perform]
      split <;> rfl
    | subscribe =>
      simp only [perform]
      split <;> rfl
    | queue | exit | malformed => rfl

theorem words_of_publish {line key message : String}
    (h : Command.ofLine line = .publish key message) :
    ∃ word more, words line = "publish" :: key :: word :: more ∧
      message = joinWords (word :: more) := by
  unfold Command.ofLine at h
  split at h
  next => split at h <;> cases h
  next => split at h <;> cases h
  next => split at h <;> cases h
  next arguments hwords =>
    split at h
    next first word more =>
      cases h
      exact ⟨word, more, hwords, rfl⟩
    next => cases h
  all_goals cases h

theorem isWord_of_publish {line key message : String}
    (h : Command.ofLine line = .publish key message) : IsWord key := by
  obtain ⟨word, more, hwords, -⟩ := words_of_publish h
  have hmem : key ∈ words line := by
    rw [hwords]
    exact List.mem_cons_of_mem _ List.mem_cons_self
  exact Wire.isWord_of_mem_words hmem

theorem Session.isWord_of_publishedKey? {registry : Routing.Registry} {session : Session}
    {line key : String} (h : session.publishedKey? registry line = some key) : IsWord key := by
  unfold publishedKey? at h
  split at h
  · next hpublish =>
    split at h
    · exact Option.some.inj h ▸ isWord_of_publish hpublish
    · cases h
  · cases h

namespace Service

theorem notices_append (first second : List Output) :
    notices (first ++ second) = notices first ++ notices second := List.filterMap_append

theorem notices_map_notice (keys : List String) : notices (keys.map .notice) = keys := by
  rw [notices, List.filterMap_map]
  exact List.filterMap_some

theorem notices_write (client : Client) (id : ClientId) (texts : List String) :
    notices (texts.flatMap (write client id)) = [] := by
  refine List.filterMap_eq_nil_iff.2 fun output hmem => ?_
  obtain ⟨text, -, hwritten⟩ := List.mem_flatMap.1 hmem
  unfold write at hwritten
  split at hwritten
  · rw [List.mem_singleton.1 hwritten]
  · cases hwritten

theorem notices_advance {service after : Service} {id : ClientId} {outputs : List Output}
    (h : service.advance id = some (after, outputs)) : notices outputs = [] := by
  cases advanced_of_advance h <;> rfl

/-- What can happen to a service, its connections and its subscriptions. -/
inductive Happening where
  | move (next : Move)
  /-- A client can no longer be written to. -/
  | hangUp (client : ClientId)
  | shutdown
  deriving DecidableEq, Repr

def undergo (service : Service) : Happening → Service × List Output
  | .move next => service.move next
  | .hangUp id => (service.hangUp id, [])
  | .shutdown => (service.shutdown, [])

def undergoAll (service : Service) : List Happening → Service × List Output
  | [] => (service, [])
  | next :: rest =>
    let (service, outputs) := service.undergo next
    let (service, later) := service.undergoAll rest
    (service, outputs ++ later)

/-- The key of what happens, if it is a publish that is answered `ok`. -/
def publishedKey? (service : Service) : Happening → Option String
  | .move (.event (.line id text)) =>
    (service.clients[id]?.filter (·.reading)).bind fun client =>
      client.session.publishedKey? service.registry text
  | _ => none

def publishedKeys (service : Service) : List Happening → List String
  | [] => []
  | next :: rest =>
    (service.publishedKey? next).toList ++ publishedKeys (service.undergo next).1 rest

theorem notices_answer (client : Client) (id : ClientId) (outcome : Outcome) :
    notices (answer client id outcome) = outcome.published.toList := by
  rw [answer, notices_append, notices_map_notice, notices_write, List.append_nil]

/-- The notice of a line tells the key that it published, if it was answered `ok`. -/
theorem notices_receive (service : Service) (id : ClientId) (text : String) :
    notices (service.receive id text).2 =
      (service.publishedKey? (.move (.event (.line id text)))).toList := by
  have hkey {client : Client} (hclient : service.clients[id]? = some client)
      (hreading : client.reading = true) :
      notices (answer client id (client.session.process service.registry text)) =
        (service.publishedKey? (.move (.event (.line id text)))).toList := by
    rw [notices_answer, Session.published_process, publishedKey?, hclient, Option.filter_some,
      if_pos hreading, Option.bind_some]
  rcases hreceive : service.receive id text with ⟨after, outputs⟩
  cases received_of_receive hreceive with
  | unread hunread =>
    have hnone : service.clients[id]?.filter (·.reading) = none :=
      Option.filter_eq_none_iff.2 fun client hclient => by simp [hunread client hclient]
    rw [publishedKey?, hnone]
    rfl
  | stays hclient hreading => exact hkey hclient hreading
  | leaves hclient hreading => exact hkey hclient hreading

/-- Only a publish that is answered `ok` is reported. -/
theorem notices_undergo (service : Service) (next : Happening) :
    notices (service.undergo next).2 = (service.publishedKey? next).toList := by
  match next with
  | .hangUp _ | .shutdown | .move (.event .connect) | .move (.event (.disconnect _)) => rfl
  | .move (.event (.line id text)) => exact notices_receive service id text
  | .move (.advance id) =>
    change notices ((service.advance id).getD (service, [])).2 = []
    cases hadvance : service.advance id with
    | none => rfl
    | some result => exact notices_advance hadvance

/-- **A whole run** reports its publishes that were answered `ok`, in order. -/
theorem notices_undergoAll (service : Service) (happenings : List Happening) :
    notices (service.undergoAll happenings).2 = service.publishedKeys happenings := by
  induction happenings generalizing service with
  | nil => rfl
  | cons next rest ih =>
    rw [publishedKeys, ← notices_undergo, ← ih, ← notices_append]
    rfl

theorem publishedKeys_append (service : Service) (first second : List Happening) :
    service.publishedKeys (first ++ second) =
      service.publishedKeys first ++ (service.undergoAll first).1.publishedKeys second := by
  induction first generalizing service with
  | nil => rfl
  | cons next rest ih =>
    rw [List.cons_append, publishedKeys, publishedKeys, ih, List.append_assoc]
    rfl

theorem isWord_of_mem_publishedKeys {service : Service} {happenings : List Happening} {key : String}
    (h : key ∈ service.publishedKeys happenings) : IsWord key := by
  induction happenings generalizing service with
  | nil => cases h
  | cons next rest ih =>
    obtain hnext | hrest := List.mem_append.1 h
    · have hkey := Option.mem_toList.1 hnext
      unfold publishedKey? at hkey
      split at hkey
      · obtain ⟨client, -, hpublished⟩ := Option.bind_eq_some_iff.1 hkey
        exact Session.isWord_of_publishedKey? hpublished
      · cases hkey
    · exact ih hrest

def datagrams (origin : Origin) (outputs : List Output) : List (List UInt8) :=
  (notices outputs).filterMap fun key => send? (notice origin key)

/-- The tally of a monitoring server that gets the datagrams in order. -/
theorem report_eq (origin : Origin) (outputs : List Output) (tally : Tally) :
    report origin outputs tally =
      tally.recordAll ((datagrams origin outputs).map Monitoring.receive) := by
  unfold report datagrams
  induction notices outputs generalizing tally with
  | nil => rfl
  | cons key rest ih =>
    rw [List.foldl_cons, ih, List.filterMap_cons, Tally.notify]
    cases send? (notice origin key) <;> rfl

/-- What a monitoring server counts of the datagrams of a run, in whatever order they arrive. -/
theorem count_arrived {origin : Origin} (horigin : origin.IsPlain) {service : Service}
    {happenings : List Happening} {arrived : List (List UInt8)}
    (harrived : arrived.Perm (datagrams origin (service.undergoAll happenings).2))
    (server key : String) :
    (Tally.empty.recordAll (arrived.map Monitoring.receive)).count server key =
      if server = origin.text then
        (service.publishedKeys happenings).countP fun published =>
          isSent origin published && seenKey origin published == key
      else 0 := by
  have hcount := (Tally.recordAll_spec Tally.isSound_empty (arrived.map Monitoring.receive)).2
  rw [datagrams, notices_undergoAll] at harrived
  rw [hcount, (harrived.map _).countP_eq,
    countP_receive horigin fun key => isWord_of_mem_publishedKeys]
  exact Nat.zero_add _

/-- The monitoring server counts a publish that is answered `ok`, if its notice can be sent, under
the broker's address and the key that it sees, and counts nothing else. As long as every notice fits
its buffer, that is the key of the publish. -/
theorem mem_entries_arrived_iff {origin : Origin} (horigin : origin.IsPlain) {service : Service}
    {happenings : List Happening} {arrived : List (List UInt8)}
    (harrived : arrived.Perm (datagrams origin (service.undergoAll happenings).2)) :
    let keys := service.publishedKeys happenings
    let tally := Tally.empty.recordAll (arrived.map Monitoring.receive)
    (∀ server key count, (server, key, count) ∈ tally.entries ↔
        0 < count ∧ server = origin.text ∧ count =
          keys.countP fun published => isSent origin published && seenKey origin published == key) ∧
      (∀ line ∈ tally, line.1 = origin.text) ∧
      ((∀ key ∈ keys, isSent origin key → (encode (notice origin key)).length ≤ receiveLimit) →
        ∀ server key count, (server, key, count) ∈ tally.entries ↔
          0 < count ∧ server = origin.text ∧ isSent origin key ∧ count = keys.count key) := by
  intro keys tally
  have hsound : tally.IsSound :=
    (Tally.recordAll_spec Tally.isSound_empty (arrived.map Monitoring.receive)).1
  have hentries : ∀ server key count, (server, key, count) ∈ tally.entries ↔
      0 < count ∧ server = origin.text ∧ count =
        keys.countP fun published => isSent origin published && seenKey origin published == key := by
    intro server key count
    rw [Tally.mem_entries_iff hsound, count_arrived horigin harrived]
    by_cases hserver : server = origin.text
    · rw [if_pos hserver]
      exact ⟨fun h => ⟨h.1, hserver, h.2.symm⟩, fun h => ⟨h.1, h.2.2.symm⟩⟩
    · rw [if_neg hserver]
      exact ⟨fun h => absurd h.2 (Nat.ne_of_lt h.1), fun h => absurd h.2.1 hserver⟩
  refine ⟨hentries, fun line hline => ?_, fun hfits server key count => ?_⟩
  · obtain ⟨key, count, hmem⟩ := hsound.exists_mem_entries hline
    exact ((hentries line.1 key count).1 hmem).2.1
  · rw [hentries, countP_seenKey hfits]
    cases hsent : isSent origin key with
    | true => simp
    | false =>
      simp only [Bool.false_eq_true, if_false, false_and, and_false, iff_false, not_and]
      exact fun hpositive _ => Nat.ne_of_gt hpositive

/-- The address of a broker on the own host. -/
def localOrigin : Origin := ⟨"127.0.0.1", 20000⟩

theorem isPlain_localOrigin : localOrigin.IsPlain := ⟨by decide +kernel, by decide +kernel⟩

/-- A client publishes before it has an exchange, once more after, and again when it can no longer be
written to. -/
def publishesThrice : List Happening :=
  [.move (.event .connect), .move (.event (.line 0 "publish a m")),
    .move (.event (.line 0 "exchange direct x")), .move (.event (.line 0 "publish a m")),
    .hangUp 0, .move (.event (.line 0 "publish b m"))]

/-- The datagrams of a run come in the other order and are counted all the same. -/
theorem publishesThrice_counted :
    let arrived := [encode "127.0.0.1:20000 b", encode "127.0.0.1:20000 a"]
    let tally := Tally.empty.recordAll (arrived.map Monitoring.receive)
    arrived.Perm (datagrams localOrigin (({} : Service).undergoAll publishesThrice).2) ∧
      ∀ key count, (localOrigin.text, key, count) ∈ tally.entries ↔
        0 < count ∧ isSent localOrigin key ∧ count = ["a", "b"].count key := by
  have hsent : datagrams localOrigin (({} : Service).undergoAll publishesThrice).2 =
      [encode "127.0.0.1:20000 a", encode "127.0.0.1:20000 b"] := by decide +kernel
  have hkeys : ({} : Service).publishedKeys publishesThrice = ["a", "b"] := by decide +kernel
  have hperm : [encode "127.0.0.1:20000 b", encode "127.0.0.1:20000 a"].Perm
      (datagrams localOrigin (({} : Service).undergoAll publishesThrice).2) := by
    rw [hsent]
    exact .swap _ _ _
  have hcounted := (mem_entries_arrived_iff isPlain_localOrigin hperm).2.2
  rw [hkeys] at hcounted
  refine ⟨hperm, fun key count => ?_⟩
  rw [hcounted (by decide +kernel)]
  simp

def keyOfLength (n : Nat) : String := String.ofList (List.replicate n 'k')

theorem length_encode_keyOfLength (n : Nat) : (encode (keyOfLength n)).length = n := by
  have hletter : 'k'.utf8Size = 1 := by decide
  simp [encode, keyOfLength, hletter]

theorem keyOfLength_add (n m : Nat) : keyOfLength (n + m) = keyOfLength n ++ keyOfLength m := by
  rw [keyOfLength, ← List.replicate_append_replicate, String.ofList_append]
  rfl

theorem isWord_keyOfLength (n : Nat) : IsWord (keyOfLength (n + 1)) := by
  constructor
  · intro hempty
    have hlength := length_encode_keyOfLength (n + 1)
    rw [hempty] at hlength
    cases hlength
  · intro c hc
    rw [keyOfLength, String.toList_ofList] at hc
    rw [List.eq_of_mem_replicate hc]
    decide

def selectsExchange : List Happening :=
  [.move (.event .connect), .move (.event (.line 0 "exchange direct x"))]

def publishesUnder (key : String) : List Happening :=
  selectsExchange ++ [.move (.event (.line 0 (joinWords ["publish", key, "m"])))]

theorem publishedKeys_publishesUnder {key : String} (hkey : IsWord key) :
    ({} : Service).publishedKeys (publishesUnder key) = [key] := by
  have hwords : ∀ w ∈ ["publish", key, "m"], IsWord w := by
    simp only [List.forall_mem_cons, List.not_mem_nil, false_implies, implies_true, and_true]
    exact ⟨by decide, hkey, by decide⟩
  have hcommand : Command.ofLine (joinWords ["publish", key, "m"]) = .publish key "m" := by
    rw [Command.ofLine, words_joinWords hwords]
    rfl
  have hnone : ({} : Service).publishedKeys selectsExchange = [] := by decide +kernel
  have hclient : (({} : Service).undergoAll selectsExchange).1.clients[0]? =
      some { session := { exchange := some 1 } } := by decide +kernel
  rw [publishesUnder, publishedKeys_append, hnone, List.nil_append]
  generalize (({} : Service).undergoAll selectsExchange).1 = service at hclient
  have hreply : (Session.process service.registry { exchange := some 1 }
      (joinWords ["publish", key, "m"])).reply = some okReply := by
    rw [Session.process, if_neg (by decide), hcommand, Session.perform_publish_reply]
    exact Option.some_ne_none _
  simp only [publishedKeys, publishedKey?, hclient, Option.filter_some, if_true, Option.bind_some,
    Session.publishedKey?, hcommand, hreply, Option.toList_some, List.append_nil]

/-- A publish whose notice is longer than the receiver's buffer is counted under a key that nobody
published under. -/
theorem keyOfLength_miscounted :
    let key := keyOfLength 1100
    let tally := report localOrigin (({} : Service).undergoAll (publishesUnder key)).2 .empty
    ({} : Service).publishedKeys (publishesUnder key) = [key] ∧ isSent localOrigin key ∧
      tally.count localOrigin.text key = 0 ∧
        tally.count localOrigin.text (keyOfLength 1008) = 1 := by
  have hkeys := publishedKeys_publishesUnder (isWord_keyOfLength 1099)
  have haddress : (encode localOrigin.text).length = 15 := by decide +kernel
  have hsent : isSent localOrigin (keyOfLength 1100) = true := by
    rw [isSent, encode_notice, List.length_append, length_encode_address, haddress,
      length_encode_keyOfLength]
    decide
  have hseen : seenKey localOrigin (keyOfLength 1100) = keyOfLength 1008 := by
    have hfits : (encode localOrigin.text).length + 1 + (encode (keyOfLength 1008)).length =
        receiveLimit := by
      rw [haddress, length_encode_keyOfLength]
      rfl
    rw [show 1100 = 1008 + 92 from rfl, keyOfLength_add, seenKey_append hfits]
  have hne : keyOfLength 1008 ≠ keyOfLength 1100 := by
    intro heq
    have hlength := congrArg (fun key => (encode key).length) heq
    simp only [length_encode_keyOfLength] at hlength
    exact absurd hlength (by decide)
  intro key tally
  refine ⟨hkeys, hsent, ?_, ?_⟩
  all_goals
    rw [show tally = _ from report_eq _ _ _, count_arrived isPlain_localOrigin (.refl _), hkeys,
      if_pos rfl, List.countP_singleton, hsent, hseen]
  · simp [key, hne]
  · simp

end Service

end BrokerCluster.Messaging
