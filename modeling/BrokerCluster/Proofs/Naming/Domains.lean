import BrokerCluster.Broker
import BrokerCluster.Proofs.Election.Outcomes
import BrokerCluster.Proofs.Naming.Resolution

/-!
# Which domains can be used

Without elections a broker registers its domain as soon as it starts. The check of the
configuration asks for a domain that is not blank; the line that registers it divides it
into words, and takes it only if it is one. A line feed in a domain, even at its
end, divides the line itself. The domains in between are accepted, and lost.
-/
namespace BrokerCluster.Naming

open Text Wire

theorem words_verb {verb : String} (hverb : IsWord verb) (rest : String) :
    words (verb ++ " " ++ rest) = verb :: words rest := by
  rw [words_append_space, words_of_isWord hverb]
  rfl

theorem words_registerLine (name : String) {address : String} (haddress : IsWord address) :
    words (Client.registerLine name address) = "register" :: (words name ++ [address]) := by
  have hline : Client.registerLine name address =
      "register" ++ " " ++ (name ++ " " ++ address) := by
    simp only [Client.registerLine, String.append_assoc]
    rfl
  rw [hline, words_verb isWord_register, words_append_space, words_of_isWord haddress]

theorem words_resolveLine (name : String) :
    words (Client.resolveLine name) = "resolve" :: words name := by
  have hline : Client.resolveLine name = "resolve" ++ " " ++ name := rfl
  rw [hline, words_verb (by decide)]

/-- Only the words of a line matter. -/
theorem answerLine_congr {line other : String} (h : words line = words other) (table : Table) :
    answerLine table line = answerLine table other := by
  rw [answerLine, answerLine, Request.ofLine, Request.ofLine, h]

theorem answerLine_resolveLine (table : Table) (name : String) :
    answerLine table (Client.resolveLine name) =
      (table, match words name with
        | [word] => (table.address? word).getD "error domain not found"
        | _ => "error usage: resolve <name>") := by
  rw [answerLine, Request.ofLine, words_resolveLine]
  rcases words name with _ | ⟨word, _ | ⟨next, rest⟩⟩ <;> rfl

/-- A line without three words registers nothing. -/
theorem answerLine_of_few_words {line : String} (h : (words line).length ≤ 2) :
    (answerLine [] line).1 = [] := by
  rw [answerLine]
  cases hrequest : Request.ofLine line with
  | register name address =>
    rw [ofLine_eq_register_iff.1 hrequest] at h
    exact absurd h (by simp)
  | unregister name => rfl
  | resolve | exit | malformed => rfl

theorem answerLines_of_few_words {lines : List String}
    (h : ∀ line ∈ lines, (words line).length ≤ 2) : (answerLines [] lines).1 = [] := by
  induction lines with
  | nil => rfl
  | cons line lines ih =>
    have hnone := answerLine_of_few_words (h line List.mem_cons_self)
    simp only [answerLines]
    split
    · exact hnone
    · simp only [hnone]
      exact ih fun other hother => h other (List.mem_cons_of_mem _ hother)

/-- A domain that can be used is one word, and no line feed is near it. -/
structure IsUsable (domain : String) : Prop where
  length_words : (words domain).length = 1
  lineFeed_notMem : '\n' ∉ domain.toList

instance (domain : String) : Decidable (IsUsable domain) :=
  decidable_of_iff ((words domain).length = 1 ∧ '\n' ∉ domain.toList)
    ⟨fun h => ⟨h.1, h.2⟩, fun h => ⟨h.length_words, h.lineFeed_notMem⟩⟩

/-- The table of a name server that knew nothing when a broker registered its domain. -/
def registered (domain address : String) : Table :=
  ((Client.register roundTrip domain address).run []).2

section

variable {domain address : String}

theorem lineFeed_notMem_of_isWord (h : IsWord address) : '\n' ∉ address.toList := by
  intro hmem
  have hblank := h.not_blank '\n' hmem
  exact absurd hblank (by decide)

theorem registered_of_isUsable (haddress : IsWord address)
    (hlimit : (encode (Client.registerLine domain address)).length ≤ lineLimit)
    (hdomain : '\n' ∉ domain.toList) :
    registered domain address = (answerLine [] (Client.registerLine domain address)).1 := by
  have hfeed : '\n' ∉ (Client.registerLine domain address).toList := by
    simp [Client.registerLine, hdomain, lineFeed_notMem_of_isWord haddress]
  obtain ⟨got, hlines, hwords⟩ := readLines_writeLine_of_no_lineFeed hfeed hlimit
  rw [registered, run_register_snd, hlines, answerLines_singleton, answerLine_congr hwords]

/-- The parts into which a line feed divides the line are too short to register anything. -/
theorem registered_of_lineFeed (haddress : IsWord address) (hdomain : '\n' ∈ domain.toList)
    (hone : (words domain).length = 1) : registered domain address = [] := by
  obtain ⟨front, rest, hchars, hfront⟩ := List.eq_append_cons_of_mem hdomain
  have hsplit : domain.toList =
      (String.ofList front).toList ++ '\n' :: (String.ofList rest).toList := by
    simpa using hchars
  have hparts := congrArg List.length (words_of_toList_eq (by decide) hsplit)
  rw [hone, List.length_append] at hparts
  have hfirst : '\n' ∉ ("register" ++ " " ++ String.ofList front).toList := by simpa using hfront
  have hline : (Client.registerLine domain address).toList =
      ("register" ++ " " ++ String.ofList front).toList ++
        '\n' :: (String.ofList rest ++ " " ++ address).toList := by
    simp [Client.registerLine, hchars]
  rw [registered, run_register_snd]
  refine answerLines_of_few_words fun line hmem => ?_
  rcases mem_readLines_writeLine hfirst hline hmem with hwords | hlater
  · rw [hwords, words_verb isWord_register, List.length_cons]
    omega
  · have hfew := length_words_le_of_mem_readLines hlater
    rw [words_append_space, words_of_isWord haddress, List.length_append,
      List.length_singleton] at hfew
    omega

/-- Whoever asks for a domain that can be used gets the broker's address. -/
theorem resolve_of_isUsable (haddress : IsWord address)
    (hlimit : (encode (Client.registerLine domain address)).length ≤ lineLimit)
    (hdomain : IsUsable domain) :
    (answerLine (registered domain address) (Client.resolveLine domain)).2 = address := by
  obtain ⟨word, hword⟩ := List.length_eq_one_iff.1 hdomain.length_words
  have hrequest : Request.ofLine (Client.registerLine domain address) = .register word address := by
    rw [ofLine_eq_register_iff, words_registerLine domain haddress, hword]
    rfl
  have htable : registered domain address = Table.register [] word address := by
    rw [registered_of_isUsable haddress hlimit hdomain.lineFeed_notMem, answerLine, hrequest]
    rfl
  simp only [answerLine_resolveLine, hword]
  rw [htable, Table.address?_register, if_pos rfl, Option.getD_some]

/-- The line that asks for a domain has two words only if the domain is one. -/
theorem resolve_of_words (table : Table) (h : (words domain).length ≠ 1) :
    (answerLine table (Client.resolveLine domain)).2 = "error usage: resolve <name>" := by
  rw [answerLine_resolveLine]
  generalize words domain = parts at h
  rcases parts with _ | ⟨word, _ | ⟨next, rest⟩⟩
  · rfl
  · exact absurd rfl h
  · rfl

/-- A line feed cuts the registration, and the server never hears the address. -/
theorem resolve_of_lineFeed (haddress : IsWord address) (hdomain : '\n' ∈ domain.toList)
    (hone : (words domain).length = 1) :
    (answerLine (registered domain address) (Client.resolveLine domain)).2 =
      "error domain not found" := by
  obtain ⟨word, hword⟩ := List.length_eq_one_iff.1 hone
  simp only [answerLine_resolveLine, hword]
  rw [registered_of_lineFeed haddress hdomain hone]
  rfl

/-- An error is no address. -/
theorem ne_of_isWord (haddress : IsWord address) {reply : String} (h : ' ' ∈ reply.toList) :
    reply ≠ address := by
  rintro rfl
  have hblank := haddress.not_blank ' ' h
  exact absurd hblank (by decide)

/-- The server answers with the address of the broker exactly if the domain can be used. -/
theorem resolve_registered_iff (haddress : IsWord address)
    (hlimit : (encode (Client.registerLine domain address)).length ≤ lineLimit) :
    (answerLine (registered domain address) (Client.resolveLine domain)).2 = address ↔
      IsUsable domain := by
  refine ⟨fun hreply => ?_, resolve_of_isUsable haddress hlimit⟩
  by_cases hone : (words domain).length = 1
  · by_cases hfeed : '\n' ∈ domain.toList
    · rw [resolve_of_lineFeed haddress hfeed hone] at hreply
      exact absurd hreply (ne_of_isWord haddress (by decide))
    · exact ⟨hone, hfeed⟩
  · rw [resolve_of_words _ hone] at hreply
    exact absurd hreply (ne_of_isWord haddress (by decide))

theorem length_encode_resolveLine (name : String) :
    (encode (Client.resolveLine name)).length = (encode name).length + 8 := by
  have hverb : (encode "resolve ").length = 8 := by decide
  rw [Client.resolveLine, encode_append, List.length_append, hverb, Nat.add_comm]

/-- Over a connection the answer is the same, unless a line feed divides the question. -/
theorem run_roundTrip_resolveLine (haddress : IsWord address)
    (hlimit : (encode (Client.registerLine domain address)).length ≤ lineLimit)
    (hdomain : '\n' ∉ domain.toList) :
    ((roundTrip (Client.resolveLine domain)).run (registered domain address)).1 =
      .ok (answerLine (registered domain address) (Client.resolveLine domain)).2 := by
  have hlength := hlimit
  rw [length_encode_registerLine] at hlength
  have hfeed : '\n' ∉ (Client.resolveLine domain).toList := by
    simp [Client.resolveLine, hdomain]
  obtain ⟨got, hlines, hwords⟩ := readLines_writeLine_of_no_lineFeed hfeed
    (by rw [length_encode_resolveLine]; omega)
  have hreply : IsLine (answerLine (registered domain address) (Client.resolveLine domain)).2 := by
    by_cases hone : (words domain).length = 1
    · rw [resolve_of_isUsable haddress hlimit ⟨hone, hdomain⟩]
      exact isLine_of_isWord haddress (by omega)
    · rw [resolve_of_words _ hone]
      exact ⟨by decide, by decide, by decide⟩
  rw [← answerLine_congr hwords] at hreply ⊢
  rw [run_roundTrip_of_readLines hlines hreply]

end

end BrokerCluster.Naming

namespace BrokerCluster.Broker

open Text Wire Naming Election

variable {config : Config.Configuration} {listen : Listen Id} {messagingPort electionPort : UInt16}

theorem isWord_addressText {host : String} (hhost : ∀ c ∈ host.toList, isBlank c = false)
    (port : UInt16) : IsWord (addressText host port) where
  ne_empty := by
    intro hempty
    have hcolon : ':' ∈ (addressText host port).toList := by simp [addressText]
    rw [hempty] at hcolon
    cases hcolon
  not_blank := by
    intro c hmem
    have hparts : c ∈ host.toList ∨ c = ':' ∨ c ∈ Nat.toDigits 10 port.toNat := by
      simpa [addressText, Nat.toList_repr] using hmem
    rcases hparts with hc | rfl | hc
    · exact hhost c hc
    · decide
    · exact isBlank_of_isDigit (isDigit_of_mem_toDigits hc)

/-- A broker starts if its ports can be taken and its configuration has no problems. -/
theorem start_eq_ok (hmessaging : listen config.broker.host config.broker.port = .ok messagingPort)
    (helection : listen config.broker.host config.election.port = .ok electionPort)
    (hvalid : config.isValid = true) (now : Int) :
    (start listen config now).run = .ok {
      config, messagingPort, electionPort
      seat := seatOf config messagingPort
      status := .fresh now } := by
  have htake : ∀ {host : String} {port taken : UInt16}, listen host port = .ok taken →
      takePort listen host port = (pure taken : ExceptT BrokerError Id UInt16) := by
    intro host port taken hlisten
    simp only [takePort]
    change ExceptT.bind (ExceptT.lift (listen host port)) _ = _
    rw [hlisten]
    rfl
  rw [start, htake hmessaging, pure_bind, htake helection, pure_bind, onPorts, if_pos hvalid]
  rfl

/-- Without elections a broker registers its domain before it serves anyone. -/
theorem exists_opening {before : Cluster} (now : Int) (hvalid : config.isValid = true)
    (hnaming : config.naming.enabled = true) (hmode : config.election.mode = .none)
    (hmessaging : listen config.broker.host config.broker.port = .ok messagingPort)
    (helection : listen config.broker.host config.election.port = .ok electionPort)
    (hnames : before.names = some []) :
    ∃ broker after, (start listen config now).run = .ok broker ∧
      Cluster.Performs now broker.seat.id broker.opening before () after ∧
      after.names = some (registered config.broker.domain
        (addressText config.broker.host messagingPort)) := by
  have hmodeOff : (seatOf config messagingPort).mode.isEnabled = false := by
    rw [seatOf, hmode]
    rfl
  refine ⟨_, { before with
    toBrokers := before.toBrokers.registerLeader (seatOf config messagingPort) },
    start_eq_ok hmessaging helection hvalid now, ?_, ?_⟩
  · rw [opening, if_neg (by simp [hmodeOff])]
    exact Cluster.Performs.registerDomain _
  · have hregistration : (seatOf config messagingPort).registration = some {
        domain := config.broker.domain
        electionDomain := config.election.domain
        address := addressText config.broker.host messagingPort } := by
      rw [seatOf, registration?, if_pos hnaming]
    simp only [Brokers.registerLeader, hregistration, hmodeOff, Brokers.register, hnames]
    rfl

/-- **A domain is usable exactly if it is one word, with no line feed near it.** A broker with a
valid configuration starts and registers its domain with an empty name server. From then on the
server answers the question for the domain with the address of the broker if and only if the domain
is usable; a client gets that answer over a connection unless a line feed divides the question. -/
theorem resolve_opening_iff {before : Cluster} (now : Int) (hvalid : config.isValid = true)
    (hnaming : config.naming.enabled = true) (hmode : config.election.mode = .none)
    (hmessaging : listen config.broker.host config.broker.port = .ok messagingPort)
    (helection : listen config.broker.host config.election.port = .ok electionPort)
    (hnames : before.names = some [])
    (hhost : ∀ c ∈ config.broker.host.toList, isBlank c = false)
    (hlimit : (encode (Client.registerLine config.broker.domain
      (addressText config.broker.host messagingPort))).length ≤ lineLimit) :
    ∃ broker after table, (start listen config now).run = .ok broker ∧
      Cluster.Performs now broker.seat.id broker.opening before () after ∧
      after.names = some table ∧
      ((answerLine table (Client.resolveLine config.broker.domain)).2 =
        addressText config.broker.host messagingPort ↔ IsUsable config.broker.domain) ∧
      ('\n' ∉ config.broker.domain.toList →
        ((roundTrip (Client.resolveLine config.broker.domain)).run table).1 =
          .ok (answerLine table (Client.resolveLine config.broker.domain)).2) := by
  obtain ⟨broker, after, hstart, hopening, htable⟩ :=
    exists_opening now hvalid hnaming hmode hmessaging helection hnames
  have haddress := isWord_addressText hhost messagingPort
  exact ⟨broker, after, _, hstart, hopening, htable, resolve_registered_iff haddress hlimit,
    run_roundTrip_resolveLine haddress hlimit⟩

/-- A host on which every port is free. -/
def freeHost : Listen Id := fun _ port => .ok port

theorem isWord_localHost : IsWord "127.0.0.1" := by decide +kernel

/-- A cluster that nobody has joined, with a name server that knows nothing. -/
def unjoined : Cluster where
  members := []
  names := some []

def paddedDomain : Config.Configuration where
  broker := { domain := " solo.cluster\t" }
  naming := { enabled := true }

/-- White space around a domain does no harm. -/
theorem paddedDomain_resolved :
    paddedDomain.isValid = true ∧
    ∃ broker after table, (start freeHost paddedDomain 0).run = .ok broker ∧
      Cluster.Performs 0 broker.seat.id broker.opening unjoined () after ∧
      after.names = some table ∧
      (answerLine table (Client.resolveLine " solo.cluster\t")).2 = "127.0.0.1:20000" := by
  have hvalid : paddedDomain.isValid = true := by decide +kernel
  have hmessaging : freeHost paddedDomain.broker.host paddedDomain.broker.port = .ok 20000 := rfl
  have helection : freeHost paddedDomain.broker.host paddedDomain.election.port = .ok 20100 := rfl
  have hnames : unjoined.names = some [] := rfl
  obtain ⟨broker, after, table, hstart, hopening, htable, hiff, -⟩ :=
    resolve_opening_iff 0 hvalid rfl rfl hmessaging helection hnames isWord_localHost.not_blank
      (by decide +kernel)
  exact ⟨hvalid, broker, after, table, hstart, hopening, htable, hiff.2 (by decide +kernel)⟩

def spacedDomain : Config.Configuration where
  broker := { domain := "my broker" }
  naming := { enabled := true }

/-- The domain is accepted, and the server does not know the broker. -/
theorem spacedDomain_unresolved :
    spacedDomain.isValid = true ∧
    (∀ c ∈ spacedDomain.broker.host.toList, isBlank c = false) ∧
    (encode (Client.registerLine "my broker" "127.0.0.1:20000")).length ≤ lineLimit ∧
    ∃ broker after table, (start freeHost spacedDomain 0).run = .ok broker ∧
      Cluster.Performs 0 broker.seat.id broker.opening unjoined () after ∧
      after.names = some table ∧
      (answerLine table (Client.resolveLine "my broker")).2 = "error usage: resolve <name>" ∧
      addressText spacedDomain.broker.host broker.messagingPort = "127.0.0.1:20000" := by
  have hvalid : spacedDomain.isValid = true := by decide +kernel
  have hmessaging : freeHost spacedDomain.broker.host spacedDomain.broker.port = .ok 20000 := rfl
  have helection : freeHost spacedDomain.broker.host spacedDomain.election.port = .ok 20100 := rfl
  have hnames : unjoined.names = some [] := rfl
  have hstart := start_eq_ok hmessaging helection hvalid 0
  obtain ⟨broker, after, hbroker, hopening, htable⟩ :=
    exists_opening 0 hvalid rfl rfl hmessaging helection hnames
  refine ⟨hvalid, isWord_localHost.not_blank, by decide +kernel, broker, after, _, hbroker,
    hopening, htable, resolve_of_words _ (by decide +kernel), ?_⟩
  rw [hstart] at hbroker
  rw [← Except.ok.inj hbroker]
  decide +kernel

end BrokerCluster.Broker
