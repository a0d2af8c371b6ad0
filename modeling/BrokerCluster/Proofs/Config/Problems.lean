import Mathlib.Data.List.Count
import BrokerCluster.Config.Validation
import BrokerCluster.Proofs.Wire.Lines

/-!
# The problems of a configuration

Each rule that a configuration breaks is listed once, and the rules about peer ids once for each
id that breaks them. So a configuration without problems keeps every rule. Its three lists of
peers have one length, so no peer is lost, and no two of the brokers have the same id.
-/
namespace BrokerCluster.Config

open Text

namespace Problem

theorem message_peerListLengths (hosts ports ids : Nat) :
    (peerListLengths hosts ports ids).message = "Peer lists differ in length: " ++ toString hosts ++
      " hosts, " ++ toString ports ++ " ports, " ++ toString ids ++ " ids" := rfl

theorem message_ownPeerId (id : Election.BrokerId) : (ownPeerId id).message =
    "Peer id " ++ int64Text id ++ " is this broker's own election id" := rfl

theorem message_repeatedPeerId (id : Election.BrokerId) :
    (repeatedPeerId id).message = "Duplicate peer id " ++ int64Text id := rfl

theorem message_unknownLogLevel (level : String) :
    (unknownLogLevel level).message = "Unknown log level '" ++ level ++ "'" := rfl

/-- How the text of a problem begins: all of it that does not depend on the configuration, up to the
first part that does. -/
def opening : Problem → String
  | noHeartbeatTimeout => "Heartbeat timeout must be greater than zero"
  | noPollInterval => "Poll interval must be greater than zero"
  | noPingInterval => "Ping interval must be greater than zero"
  | peerListLengths _ _ _ => "Peer lists differ in length: "
  | ownPeerId _ => "Peer id "
  | repeatedPeerId _ => "Duplicate peer id "
  | noElectionDomain => "Election domain is required when election is enabled"
  | noBrokerDomain => "Broker domain is required for name service registration"
  | unknownLogLevel _ => "Unknown log level '"

theorem exists_message_eq (problem : Problem) :
    ∃ rest, problem.message = problem.opening ++ rest := by
  cases problem with
  | peerListLengths hosts ports ids =>
    rw [message_peerListLengths]
    simp only [String.append_assoc]
    exact ⟨_, rfl⟩
  | ownPeerId id =>
    rw [message_ownPeerId, String.append_assoc]
    exact ⟨_, rfl⟩
  | repeatedPeerId id => exact ⟨_, message_repeatedPeerId id⟩
  | unknownLogLevel level =>
    rw [message_unknownLogLevel, String.append_assoc]
    exact ⟨_, rfl⟩
  | noHeartbeatTimeout | noPollInterval | noPingInterval | noElectionDomain | noBrokerDomain =>
    exact ⟨"", String.append_empty.symm⟩

theorem opening_isPrefix (problem : Problem) :
    problem.opening.toList <+: problem.message.toList := by
  obtain ⟨rest, hrest⟩ := exists_message_eq problem
  rw [hrest, String.toList_append]
  exact List.prefix_append _ _

def openings : List String :=
  [noHeartbeatTimeout, noPollInterval, noPingInterval, peerListLengths 0 0 0, ownPeerId 0,
    repeatedPeerId 0, noElectionDomain, noBrokerDomain, unknownLogLevel ""].map opening

theorem opening_mem (problem : Problem) : problem.opening ∈ openings := by
  cases problem <;> simp [openings, opening]

/-- No opening goes on as another. -/
theorem opening_eq_of_isPrefix : ∀ first ∈ openings, ∀ second ∈ openings,
    first.toList <+: second.toList → first = second := by
  decide +kernel

/-- No opening begins another one, so a text has only one. -/
theorem opening_eq_of_message_eq {problem other : Problem} (h : problem.message = other.message) :
    problem.opening = other.opening := by
  have hfirst := opening_isPrefix problem
  rw [h] at hfirst
  rcases List.prefix_or_prefix_of_prefix hfirst (opening_isPrefix other) with hpre | hpre
  · exact opening_eq_of_isPrefix _ (opening_mem _) _ (opening_mem _) hpre
  · exact (opening_eq_of_isPrefix _ (opening_mem _) _ (opening_mem _) hpre).symm

theorem words_peerListLengths (hosts ports ids : Nat) :
    words (peerListLengths hosts ports ids).message =
      ["Peer", "lists", "differ", "in", "length:", toString hosts, "hosts,", toString ports,
        "ports,", toString ids, "ids"] := by
  have hlengths : "Peer lists differ in length: " = "Peer lists differ in length:" ++ " " := by
    decide +kernel
  have hhosts : " hosts, " = " " ++ "hosts," ++ " " := by decide +kernel
  have hports : " ports, " = " " ++ "ports," ++ " " := by decide +kernel
  have hids : " ids" = " " ++ "ids" := by decide +kernel
  have hwords : words "Peer lists differ in length:" =
      ["Peer", "lists", "differ", "in", "length:"] := by
    decide +kernel
  have hword : ∀ w ∈ ["hosts,", "ports,", "ids"], IsWord w := by decide +kernel
  rw [message_peerListLengths, hlengths, hhosts, hports, hids]
  simp only [← String.append_assoc, words_append_space, words_of_isWord (isWord_toString _), hwords,
    words_of_isWord (hword "hosts," (by simp)), words_of_isWord (hword "ports," (by simp)),
    words_of_isWord (hword "ids" (by simp))]
  rfl

theorem int64Text_inj {n m : Int64} (h : int64Text n = int64Text m) : n = m := by
  have hread := readInt64?_int64Text n
  rw [h, readInt64?_int64Text] at hread
  exact (Option.some.inj hread).symm

/-- The text of a problem says which problem it is. -/
theorem message_injective : Function.Injective message := by
  intro problem other h
  have hopening := opening_eq_of_message_eq h
  cases problem <;> cases other <;> try (simp [opening] at hopening; done)
  case peerListLengths.peerListLengths =>
    have hwords := congrArg words h
    rw [words_peerListLengths, words_peerListLengths] at hwords
    simp only [List.cons.injEq, true_and, and_true] at hwords
    rw [toString_inj hwords.1, toString_inj hwords.2.1, toString_inj hwords.2.2]
  case ownPeerId.ownPeerId id found =>
    rw [message_ownPeerId, message_ownPeerId, String.append_left_inj, String.append_right_inj] at h
    rw [int64Text_inj h]
  case repeatedPeerId.repeatedPeerId id found =>
    rw [message_repeatedPeerId, message_repeatedPeerId, String.append_right_inj] at h
    rw [int64Text_inj h]
  case unknownLogLevel.unknownLogLevel level found =>
    rw [message_unknownLogLevel, message_unknownLogLevel, String.append_left_inj,
      String.append_right_inj] at h
    rw [h]
  case noHeartbeatTimeout.noHeartbeatTimeout | noPollInterval.noPollInterval |
      noPingInterval.noPingInterval | noElectionDomain.noElectionDomain |
      noBrokerDomain.noBrokerDomain => rfl

end Problem

/-- A rule lists its problem once, if it is broken. -/
theorem count_rule (broken : Prop) [Decidable broken] (problem other : Problem) :
    (if broken then [problem] else []).count other = if broken ∧ problem = other then 1 else 0 := by
  by_cases hbroken : broken
  · rw [if_pos hbroken, List.count_singleton, beq_eq_decide]
    simp [hbroken]
  · rw [if_neg hbroken, if_neg fun h => hbroken h.1, List.count_nil]

section PeerIds

variable {own : Election.BrokerId} {seen ids : List Election.BrokerId}

theorem eq_of_mem_peerIdProblems {problem : Problem} (h : problem ∈ peerIdProblems own seen ids) :
    ∃ id, problem = .ownPeerId id ∨ problem = .repeatedPeerId id := by
  induction ids generalizing seen with
  | nil => cases h
  | cons id rest ih =>
    rw [peerIdProblems, List.append_assoc, List.mem_append, List.mem_append] at h
    rcases h with hown | hrepeated | hrest
    · split at hown
      · exact ⟨id, .inl (List.mem_singleton.1 hown)⟩
      · cases hown
    · split at hrepeated
      · exact ⟨id, .inr (List.mem_singleton.1 hrepeated)⟩
      · cases hrepeated
    · exact ih hrest

/-- The broker's own id is a problem as often as it is given to a peer. -/
theorem count_ownPeerId (own : Election.BrokerId) (seen ids : List Election.BrokerId)
    (id : Election.BrokerId) :
    (peerIdProblems own seen ids).count (.ownPeerId id) = if id = own then ids.count id else 0 := by
  induction ids generalizing seen with
  | nil => simp [peerIdProblems]
  | cons first rest ih =>
    rw [peerIdProblems, List.count_append, List.count_append, count_rule, count_rule, ih,
      List.count_cons, beq_eq_decide]
    by_cases hid : first = id
    · subst hid
      by_cases hown : first = own <;> simp [hown, Nat.add_comm]
    · simp [hid]

/-- An id is a problem each time it is given to a peer again. -/
theorem count_repeatedPeerId (own : Election.BrokerId) (seen ids : List Election.BrokerId)
    (id : Election.BrokerId) : (peerIdProblems own seen ids).count (.repeatedPeerId id) =
      ids.count id - if id ∈ seen then 0 else 1 := by
  induction ids generalizing seen with
  | nil => simp [peerIdProblems]
  | cons first rest ih =>
    rw [peerIdProblems, List.count_append, List.count_append, count_rule, count_rule, ih,
      List.count_cons, beq_eq_decide]
    by_cases hid : first = id
    · subst hid
      by_cases hseen : first ∈ seen <;> simp [hseen, Nat.add_comm]
    · simp [hid, Ne.symm hid]

end PeerIds

namespace Configuration

/-- How often a problem must be listed: once for a rule that is broken, once for each peer that has
the broker's own id, and once for each peer that has the id of one before it. -/
def occurrences (config : Configuration) : Problem → Nat
  | .noHeartbeatTimeout => if config.election.heartbeatTimeout = 0 then 1 else 0
  | .noPollInterval => if config.election.pollInterval = 0 then 1 else 0
  | .noPingInterval => if config.election.pingInterval = some 0 then 1 else 0
  | .peerListLengths hosts ports ids =>
    if (hosts, ports, ids) = (config.election.peerHosts.length, config.election.peerPorts.length,
      config.election.peerIds.length) ∧ ¬ (hosts = ports ∧ hosts = ids) then 1 else 0
  | .ownPeerId id => if id = config.election.id then config.election.peerIds.count id else 0
  | .repeatedPeerId id => config.election.peerIds.count id - 1
  | .noElectionDomain =>
    if config.election.mode.isEnabled ∧ trim config.election.domain = "" then 1 else 0
  | .noBrokerDomain =>
    if config.naming.enabled ∧ ¬ config.election.mode.isEnabled ∧ trim config.broker.domain = ""
      then 1 else 0
  | .unknownLogLevel level =>
    if level = config.logging.level ∧ LogLevel.parse? level = none then 1 else 0

/-- Only the two rules about peer ids list problems of the ids. -/
theorem count_peerIdProblems (own : Election.BrokerId) (seen ids : List Election.BrokerId)
    (problem : Problem) (hown : ∀ id, problem ≠ .ownPeerId id)
    (hrepeated : ∀ id, problem ≠ .repeatedPeerId id) :
    (peerIdProblems own seen ids).count problem = 0 := by
  refine List.count_eq_zero.2 fun hmem => ?_
  obtain ⟨id, hid | hid⟩ := eq_of_mem_peerIdProblems hmem
  · exact hown id hid
  · exact hrepeated id hid

/-- Nothing is listed that is not a problem, and each problem as often as it occurs. -/
theorem count_problems (config : Configuration) (problem : Problem) :
    config.problems.count problem = config.occurrences problem := by
  simp only [problems, List.count_append, count_rule, isBlankText_iff_trim]
  cases problem with
  | ownPeerId id => simp [occurrences, count_ownPeerId]
  | repeatedPeerId id => simp [occurrences, count_repeatedPeerId]
  | peerListLengths hosts ports ids =>
    have hids := count_peerIdProblems config.election.id [] config.election.peerIds
      (.peerListLengths hosts ports ids) (by simp) (by simp)
    simp only [hids, occurrences, reduceCtorEq, and_false, if_false, Nat.zero_add, Nat.add_zero,
      Problem.peerListLengths.injEq, Prod.mk.injEq]
    refine if_congr ?_ rfl rfl
    omega
  | unknownLogLevel level =>
    have hids := count_peerIdProblems config.election.id [] config.election.peerIds
      (.unknownLogLevel level) (by simp) (by simp)
    simp only [hids, occurrences, reduceCtorEq, and_false, if_false, Nat.zero_add,
      Problem.unknownLogLevel.injEq]
    exact if_congr ⟨fun h => ⟨h.2.symm, h.2 ▸ h.1⟩, fun h => ⟨h.1 ▸ h.2, h.1.symm⟩⟩ rfl rfl
  | noHeartbeatTimeout | noPollInterval | noPingInterval | noElectionDomain | noBrokerDomain =>
    simp [occurrences, count_peerIdProblems]

/-- A log level is known by its name, whatever the case of its letters. -/
theorem parse?_eq_none_iff {text : String} :
    LogLevel.parse? text = none ↔ ∀ level : LogLevel, level.name ≠ text.toUpper := by
  rw [LogLevel.parse?, List.find?_eq_none]
  constructor
  · intro h level
    have hmem : level ∈ LogLevel.all := by cases level <;> decide
    simpa using h level hmem
  · exact fun h level _ => by simpa using h level

/-- The rules for configurations. -/
structure IsWellFormed (config : Configuration) : Prop where
  heartbeatTimeout : config.election.heartbeatTimeout ≠ 0
  pollInterval : config.election.pollInterval ≠ 0
  pingInterval : config.election.pingInterval ≠ some 0
  ports : config.election.peerPorts.length = config.election.peerHosts.length
  ids : config.election.peerIds.length = config.election.peerHosts.length
  distinct : config.election.peerIds.Nodup
  others : config.election.id ∉ config.election.peerIds
  electionDomain : config.election.mode.isEnabled → trim config.election.domain ≠ ""
  brokerDomain : config.naming.enabled → ¬ config.election.mode.isEnabled →
    trim config.broker.domain ≠ ""
  level : ∃ level : LogLevel, level.name = config.logging.level.toUpper

/-- No problem must be listed exactly if all rules are kept. -/
theorem occurrences_eq_zero_iff (config : Configuration) :
    (∀ problem, config.occurrences problem = 0) ↔ config.IsWellFormed := by
  constructor
  · intro h
    have hlengths := h (.peerListLengths config.election.peerHosts.length
      config.election.peerPorts.length config.election.peerIds.length)
    have hown := h (.ownPeerId config.election.id)
    have hlevel := h (.unknownLogLevel config.logging.level)
    simp only [occurrences, true_and, ite_eq_right_iff, Nat.one_ne_zero, imp_false, not_not,
      if_true] at hlengths hown hlevel
    exact {
      heartbeatTimeout := by simpa [occurrences] using h .noHeartbeatTimeout
      pollInterval := by simpa [occurrences] using h .noPollInterval
      pingInterval := by simpa [occurrences] using h .noPingInterval
      ports := hlengths.1.symm
      ids := hlengths.2.symm
      distinct := List.nodup_iff_count.2 fun id => Nat.sub_eq_zero_iff_le.1 (h (.repeatedPeerId id))
      others := List.count_eq_zero.1 hown
      electionDomain := by simpa [occurrences] using h .noElectionDomain
      brokerDomain := by simpa [occurrences] using h .noBrokerDomain
      level := by simpa [parse?_eq_none_iff] using hlevel }
  · intro h problem
    cases problem with
    | noHeartbeatTimeout => exact if_neg h.heartbeatTimeout
    | noPollInterval => exact if_neg h.pollInterval
    | noPingInterval => exact if_neg h.pingInterval
    | peerListLengths hosts ports ids =>
      refine if_neg fun hbroken => ?_
      obtain ⟨hlengths, hne⟩ := hbroken
      simp only [Prod.mk.injEq, h.ports, h.ids] at hlengths
      exact hne ⟨hlengths.1.trans hlengths.2.1.symm, hlengths.1.trans hlengths.2.2.symm⟩
    | ownPeerId id =>
      refine ite_eq_right_iff.2 fun hid => List.count_eq_zero.2 ?_
      exact hid ▸ h.others
    | repeatedPeerId id => exact Nat.sub_eq_zero_of_le (List.nodup_iff_count.1 h.distinct id)
    | noElectionDomain => exact if_neg fun hbroken => h.electionDomain hbroken.1 hbroken.2
    | noBrokerDomain => exact if_neg fun hbroken => h.brokerDomain hbroken.1 hbroken.2.1 hbroken.2.2
    | unknownLogLevel level =>
      obtain ⟨known, hknown⟩ := h.level
      exact if_neg fun hbroken => parse?_eq_none_iff.1 hbroken.2 known (hbroken.1 ▸ hknown)

/-- A configuration is accepted if and only if it breaks none of the rules. -/
theorem isValid_iff (config : Configuration) : config.isValid = true ↔ config.IsWellFormed := by
  rw [← occurrences_eq_zero_iff, isValid, List.isEmpty_iff, List.eq_nil_iff_forall_not_mem]
  exact forall_congr' fun problem => by rw [← count_problems, List.count_eq_zero]

section Peers

variable {config : Configuration} (h : config.IsWellFormed)
include h

theorem IsWellFormed.map_id_peers : config.peers.map (·.id) = config.election.peerIds := by
  have hlength : config.election.peerIds.length ≤
      (config.election.peerHosts.zip config.election.peerPorts).length := by
    rw [List.length_zip, h.ids, h.ports, Nat.min_self]
  rw [peers, List.map_map]
  exact List.map_fst_zip hlength

theorem IsWellFormed.map_address_peers : (config.peers.map fun peer => (peer.host, peer.port)) =
    config.election.peerHosts.zip config.election.peerPorts := by
  have hlength : (config.election.peerHosts.zip config.election.peerPorts).length ≤
      config.election.peerIds.length := by
    rw [List.length_zip, h.ids, h.ports, Nat.min_self]
  rw [peers, List.map_map]
  exact List.map_snd_zip hlength

theorem IsWellFormed.map_host_peers : config.peers.map (·.host) = config.election.peerHosts := by
  have haddress := congrArg (List.map Prod.fst) h.map_address_peers
  rw [List.map_map, List.map_fst_zip (Nat.le_of_eq h.ports.symm)] at haddress
  exact haddress

theorem IsWellFormed.map_port_peers : config.peers.map (·.port) = config.election.peerPorts := by
  have haddress := congrArg (List.map Prod.snd) h.map_address_peers
  rw [List.map_map, List.map_snd_zip (Nat.le_of_eq h.ports)] at haddress
  exact haddress

end Peers

/-- A broker knows its peers as they are listed, each by an id of its own. -/
structure HasPeers (config : Configuration) (peers : List Election.Peer) : Prop where
  ids : peers.length = config.election.peerIds.length
  hosts : peers.length = config.election.peerHosts.length
  ports : peers.length = config.election.peerPorts.length
  entries : ∀ (i : Nat) (peer : Election.Peer), peers[i]? = some peer ↔
    config.election.peerIds[i]? = some peer.id ∧ config.election.peerHosts[i]? = some peer.host ∧
      config.election.peerPorts[i]? = some peer.port
  distinct : peers.Pairwise fun first second => first.id ≠ second.id
  others : ∀ peer ∈ peers, peer.id ≠ config.election.id

/-- With three lists of one length no peer is lost when they are put together. -/
theorem IsWellFormed.hasPeers {config : Configuration} (h : config.IsWellFormed) :
    config.HasPeers config.peers where
  ids := by rw [← h.map_id_peers, List.length_map]
  hosts := by rw [← h.map_host_peers, List.length_map]
  ports := by rw [← h.map_port_peers, List.length_map]
  entries i peer := by
    rw [← h.map_id_peers, ← h.map_host_peers, ← h.map_port_peers, List.getElem?_map,
      List.getElem?_map, List.getElem?_map]
    cases config.peers[i]? with
    | none => simp
    | some found =>
      obtain ⟨id, host, port⟩ := peer
      obtain ⟨foundId, foundHost, foundPort⟩ := found
      simp
  distinct := List.pairwise_map.1 (h.map_id_peers ▸ h.distinct)
  others peer hpeer hid := h.others (h.map_id_peers ▸ List.mem_map.2 ⟨peer, hpeer, hid⟩)

/-- **Exact validation.** A configuration can be used if and only if it keeps every rule. Otherwise
the texts of its problems are those that must be listed, each as often as it must be, and no others.
The peers of one that can be used are those of its three lists, with distinct ids that are not the
broker's own. -/
theorem problems_exact (config : Configuration) :
    (config.isValid = true ↔ config.IsWellFormed) ∧
    ((∀ problem : Problem, (config.problems.map Problem.message).count problem.message =
        config.occurrences problem) ∧
      ∀ text ∈ config.problems.map Problem.message, ∃ problem : Problem,
        problem.message = text ∧ 0 < config.occurrences problem) ∧
    (config.isValid = true → config.HasPeers config.peers) := by
  refine ⟨isValid_iff config, ⟨fun problem => ?counted, fun text htext => ?listed⟩,
    fun hvalid => ((isValid_iff config).1 hvalid).hasPeers⟩
  case counted =>
    rw [List.count_map_of_injective _ _ Problem.message_injective, count_problems]
  case listed =>
    obtain ⟨problem, hproblem, rfl⟩ := List.mem_map.1 htext
    exact ⟨problem, rfl, count_problems config problem ▸ List.count_pos_iff.2 hproblem⟩

/-- A broker with two peers. -/
def pair : Configuration where
  election := {
    mode := .bully
    id := 1
    peerHosts := ["10.0.0.2", "10.0.0.3"]
    peerPorts := [20100, 20101]
    peerIds := [2, 3] }

/-- A broker whose peers are not told apart, and who is one of them. -/
def confused : Configuration where
  election := { pair.election with peerIds := [1, 2, 1] }

theorem problems_exact_pair :
    pair.isValid = true ∧ pair.HasPeers [⟨2, "10.0.0.2", 20100⟩, ⟨3, "10.0.0.3", 20101⟩] ∧
      let texts := confused.problems.map Problem.message
      texts.count "Peer id 1 is this broker's own election id" = 2 ∧
        texts.count "Duplicate peer id 1" = 1 := by
  have hvalid : pair.isValid = true := by decide +kernel
  obtain ⟨-, -, hpeers⟩ := problems_exact pair
  obtain ⟨-, ⟨hcount, -⟩, -⟩ := problems_exact confused
  exact ⟨hvalid, hpeers hvalid, hcount (.ownPeerId 1), hcount (.repeatedPeerId 1)⟩

end Configuration

end BrokerCluster.Config
