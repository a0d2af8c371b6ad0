import Mathlib.Data.List.Induction
import BrokerCluster.Proofs.Naming.Registration

/-!
# What a client is told

What a server holds for a name is what the last line about that name said. A client
that asks for the name is told just that, unless the address begins like the reply to
a request that failed.
-/
namespace BrokerCluster.Naming

open Text Wire

/-- What a line says about a name: its address, or that it has none. -/
def said? (name line : String) : Option (Option String) :=
  match words line with
  | ["register", other, address] => if name = other then some (some address) else none
  | ["unregister", other] => if name = other then some none else none
  | _ => none

/-- The address that the last line about a name says. -/
def lastSaid (name : String) (lines : List String) : Option String :=
  (lines.filterMap (said? name)).getLast?.join

/-- What a server holds that started empty and answered these lines, from whatever connections. -/
def tableAfter (lines : List String) : Table :=
  lines.foldl (fun table line => (answerLine table line).1) []

theorem ofLine_eq_register_iff {line name address : String} :
    Request.ofLine line = .register name address ↔ words line = ["register", name, address] := by
  constructor
  · intro h
    unfold Request.ofLine at h
    split at h
    next arguments hwords =>
      split at h
      · cases h
        exact hwords
      · cases h
    next => split at h <;> cases h
    next => split at h <;> cases h
    next => cases h
    next => cases h
  · intro hwords
    simp [Request.ofLine, hwords]

theorem ofLine_eq_unregister_iff {line name : String} :
    Request.ofLine line = .unregister name ↔ words line = ["unregister", name] := by
  constructor
  · intro h
    unfold Request.ofLine at h
    split at h
    next => split at h <;> cases h
    next => split at h <;> cases h
    next arguments hwords =>
      split at h
      · cases h
        exact hwords
      · cases h
    next => cases h
    next => cases h
  · intro hwords
    simp [Request.ofLine, hwords]

theorem said?_eq (name line : String) :
    said? name line = match Request.ofLine line with
      | .register other address => if name = other then some (some address) else none
      | .unregister other => if name = other then some none else none
      | _ => none := by
  unfold said?
  split
  next hwords => rw [ofLine_eq_register_iff.2 hwords]
  next hwords => rw [ofLine_eq_unregister_iff.2 hwords]
  next hregister hunregister =>
    split
    next h => exact absurd (ofLine_eq_register_iff.1 h) (hregister _ _)
    next h => exact absurd (ofLine_eq_unregister_iff.1 h) (hunregister _)
    next => rfl

/-- A line changes the address of a name only if it says something about it. -/
theorem address?_answerLine (table : Table) (name line : String) :
    (answerLine table line).1.address? name = (said? name line).getD (table.address? name) := by
  rw [said?_eq, answerLine]
  cases Request.ofLine line with
  | register other address =>
    rw [answer, Table.address?_register]
    dsimp only
    split <;> rfl
  | unregister other =>
    rw [answer, Table.address?_unregister]
    dsimp only
    split <;> rfl
  | resolve | exit | malformed => rfl

theorem tableAfter_append (lines : List String) (line : String) :
    tableAfter (lines ++ [line]) = (answerLine (tableAfter lines) line).1 := by
  rw [tableAfter, List.foldl_append]
  rfl

theorem lastSaid_append (name : String) (lines : List String) (line : String) :
    lastSaid name (lines ++ [line]) = (said? name line).getD (lastSaid name lines) := by
  rw [lastSaid, List.filterMap_append]
  cases hsaid : said? name line with
  | none => simp [hsaid, lastSaid]
  | some address? => simp [hsaid]

/-- A server holds for a name what was last said about it. -/
theorem address?_tableAfter (name : String) (lines : List String) :
    (tableAfter lines).address? name = lastSaid name lines := by
  induction lines using List.reverseRecOn with
  | nil => rfl
  | append_singleton lines line ih =>
    rw [tableAfter_append, address?_answerLine, lastSaid_append, ih]

def IsReceived (line : String) : Prop := ∃ bytes rest, readLine bytes = .line line rest

theorem isLine_of_lastSaid {name address : String} {lines : List String}
    (hlines : ∀ line ∈ lines, IsReceived line) (h : lastSaid name lines = some address) :
    IsLine address := by
  have hlast := List.mem_of_getLast? (Option.join_eq_some_iff.1 h)
  obtain ⟨line, hline, hsaid⟩ := List.mem_filterMap.1 hlast
  have hword : address ∈ words line := by
    unfold said? at hsaid
    split at hsaid
    next hwords =>
      split at hsaid <;> cases hsaid
      simp [hwords]
    next => split at hsaid <;> cases hsaid
    next => cases hsaid
  obtain ⟨bytes, rest, hread⟩ := hlines line hline
  exact isLine_of_isWord (isWord_of_mem_words hword)
    (Nat.le_trans (length_encode_le_of_mem_words hword) (length_encode_le_of_readLine hread))

theorem isLine_banner : IsLine banner := ⟨by decide, by decide, by decide⟩

theorem replyIn_writeLines {greeting reply : String} (hgreeting : IsLine greeting)
    (hreply : IsLine reply) : replyIn (writeLines [greeting, reply]) = .ok reply := by
  have hgreet : expectLine (writeLines [greeting, reply]) = .ok (greeting, writeLines [reply]) := by
    have hsplit : writeLines [greeting, reply] = writeLine greeting ++ writeLines [reply] := rfl
    rw [hsplit, expectLine, readLine_writeLine hgreeting]
  have hanswer : expectLine (writeLines [reply]) = .ok (reply, []) := by
    have hsplit : writeLines [reply] = writeLine reply ++ [] := rfl
    rw [hsplit, expectLine, readLine_writeLine hreply]
  simp only [replyIn, hgreet, hanswer, Except.bind, bind, pure, Except.pure]

/-- A line that comes through as one line gets its answer back. -/
theorem run_roundTrip_of_readLines {line got : String} {table : Table}
    (h : readLines (writeLine line) = ([got], none)) (hreply : IsLine (answerLine table got).2) :
    (roundTrip line).run table = (.ok (answerLine table got).2, (answerLine table got).1) := by
  have hserve : serve table (writeLine line) =
      ((answerLine table got).1, writeLines [banner, (answerLine table got).2]) := by
    rw [serve, h, answerLines_singleton]
  change (replyIn (serve table (writeLine line)).2, (serve table (writeLine line)).1) = _
  rw [hserve, replyIn_writeLines isLine_banner hreply]

theorem run_roundTrip {line : String} {table : Table} (h : IsLine line)
    (hreply : IsLine (answerLine table line).2) :
    (roundTrip line).run table = (.ok (answerLine table line).2, (answerLine table line).1) := by
  have hone : writeLines [line] = writeLine line := List.append_nil _
  have hlines := readLines_writeLines (List.forall_mem_singleton.2 h)
  rw [hone] at hlines
  exact run_roundTrip_of_readLines hlines hreply

/-- Of a line that is too long nothing comes through, and nothing comes back. -/
theorem run_roundTrip_of_long {line : String} (hfeed : lineFeed ∉ encode line)
    (hlong : lineLimit < (encode line).length) (table : Table) :
    (roundTrip line).run table = (.error .closed, table) := by
  have hserve : serve table (writeLine line) = (table, writeLine banner) := by
    rw [serve, readLines_writeLine_of_long hfeed hlong]
    rfl
  change (replyIn (serve table (writeLine line)).2, (serve table (writeLine line)).1) = _
  rw [hserve]
  have hread := readLine_writeLine isLine_banner []
  rw [List.append_nil] at hread
  simp only [replyIn, expectLine, hread]
  rfl

/-- A verb and a name arrive as one line, and as those two words. -/
theorem arrives_pair {line verb name : String} (hverb : IsWord verb) (hname : IsWord name)
    (hpair : line = verb ++ " " ++ name) (hshort : (encode line).length ≤ lineLimit) :
    IsLine line ∧ words line = [verb, name] := by
  have hmem : ∀ w ∈ [verb, name], IsWord w :=
    List.forall_mem_cons.2 ⟨hverb, List.forall_mem_singleton.2 hname⟩
  rw [hpair, ← joinWords_pair] at hshort ⊢
  exact ⟨isLine_joinWords hmem hshort, words_joinWords hmem⟩

theorem isLine_ok : IsLine "ok" := ⟨by decide, by decide, by decide⟩

theorem isLine_notFound : IsLine "error domain not found" := ⟨by decide, by decide, by decide⟩

/-- Whether a client sees a registered address: not if it begins like a failure. -/
def isSeen (address : String) : Bool := !"error".isPrefixOf address

/-- What a client makes of the reply to `resolve`, whether or not the name has an address. -/
theorem addressIn_getD (found : Option String) :
    Client.addressIn (.ok (found.getD "error domain not found")) = .ok (found.filter isSeen) := by
  cases found with
  | none => rw [Option.getD_none, Client.addressIn, if_pos (by decide +kernel), Option.filter_none]
  | some address =>
    rw [Option.getD_some, Client.addressIn, Option.filter_some, isSeen]
    cases "error".isPrefixOf address <;> rfl

/-- A client learns the address, unless that looks like a refusal. -/
theorem run_resolve {name : String} (hname : IsWord name)
    (hshort : (encode (Client.resolveLine name)).length ≤ lineLimit) {table : Table}
    (haddress : ∀ address, table.address? name = some address → IsLine address) :
    (Client.resolve roundTrip name).run table =
      (.ok ((table.address? name).filter isSeen), table) := by
  have hpair : Client.resolveLine name = "resolve" ++ " " ++ name := rfl
  obtain ⟨hline, hwords⟩ := arrives_pair (by decide) hname hpair hshort
  have hanswer : answerLine table (Client.resolveLine name) =
      (table, (table.address? name).getD "error domain not found") := by
    simp [answerLine, Request.ofLine, hwords, answer]
  have hreply : IsLine ((table.address? name).getD "error domain not found") := by
    cases hfound : table.address? name with
    | none => exact isLine_notFound
    | some address => exact haddress address hfound
  have htrip := run_roundTrip hline (by rw [hanswer]; exact hreply)
  rw [Client.resolve, StateT.run_map, htrip, hanswer, ← addressIn_getD]
  rfl

theorem run_unregister {name : String} (hname : IsWord name)
    (hshort : (encode (Client.unregisterLine name)).length ≤ lineLimit) (table : Table) :
    (Client.unregister roundTrip name).run table = (.ok (), table.unregister name) := by
  have hpair : Client.unregisterLine name = "unregister" ++ " " ++ name := rfl
  obtain ⟨hline, hwords⟩ := arrives_pair (by decide) hname hpair hshort
  have hanswer : answerLine table (Client.unregisterLine name) = (table.unregister name, "ok") := by
    simp [answerLine, Request.ofLine, hwords, answer]
  have htrip := run_roundTrip hline (by rw [hanswer]; exact isLine_ok)
  rw [Client.unregister, StateT.run_map, htrip, hanswer]
  rfl

/-- Only a registration whose line is not too long is acknowledged. -/
theorem isRegistrable_of_run_register {name address : String} (hname : IsWord name)
    (haddress : IsWord address) {table : Table}
    (h : ((Client.register roundTrip name address).run table).1 = .ok ()) :
    IsRegistrable name address := by
  refine ⟨hname, haddress, Nat.le_of_not_lt fun hlong => ?_⟩
  have hfeed : lineFeed ∉ encode (Client.registerLine name address) := by
    rw [registerLine_eq_joinWords]
    exact notMem_encode_joinWords (isWord_of_mem_registerLine hname haddress) (by decide)
  rw [Client.register, StateT.run_map, run_roundTrip_of_long hfeed hlong] at h
  cases h

theorem length_encode_registerLine (name address : String) :
    (encode (Client.registerLine name address)).length =
      (encode name).length + (encode address).length + 10 := by
  have hverb : (encode "register ").length = 9 := by decide
  have hspace : (encode " ").length = 1 := by decide
  rw [Client.registerLine, encode_append, encode_append, encode_append, List.length_append,
    List.length_append, List.length_append, hverb, hspace]
  omega

theorem length_encode_unregisterLine (name : String) :
    (encode (Client.unregisterLine name)).length = (encode name).length + 11 := by
  have hverb : (encode "unregister ").length = 11 := by decide
  rw [Client.unregisterLine, encode_append, List.length_append, hverb, Nat.add_comm]

/-- A client that asks for a name is told the address that was last said of it, if it is seen. A
registration that succeeds is told next, and a removal undoes it. -/
theorem resolve_tableAfter {name : String} {lines : List String} (hname : IsWord name)
    (hshort : (encode (Client.resolveLine name)).length ≤ lineLimit)
    (hlines : ∀ line ∈ lines, IsReceived line) :
    (Client.resolve roundTrip name).run (tableAfter lines) =
        (.ok ((lastSaid name lines).filter isSeen), tableAfter lines) ∧
      ∀ address, IsWord address →
        let registered := (Client.register roundTrip name address).run (tableAfter lines)
        let unregistered := (Client.unregister roundTrip name).run registered.2
        registered.1 = .ok () →
          ((Client.resolve roundTrip name).run registered.2).1 =
              .ok (if isSeen address then some address else none) ∧
            unregistered.1 = .ok () ∧
              ((Client.resolve roundTrip name).run unregistered.2).1 = .ok none := by
  constructor
  · have hlast := address?_tableAfter name lines
    rw [run_resolve hname hshort fun address hfound => isLine_of_lastSaid hlines (hlast ▸ hfound),
      hlast]
  · intro address haddress registered unregistered hok
    have hfits := isRegistrable_of_run_register hname haddress hok
    have hlength := hfits.length_le
    rw [length_encode_registerLine] at hlength
    have hregistered : registered.2 = (tableAfter lines).register name address :=
      run_register name address hfits _
    have hfound : registered.2.address? name = some address := by
      rw [hregistered, Table.address?_register, if_pos rfl]
    have hline : IsLine address := isLine_of_isWord haddress (by omega)
    have hpositive := length_encode_pos haddress
    have hunregistered : unregistered = (.ok (), registered.2.unregister name) :=
      run_unregister hname (by rw [length_encode_unregisterLine]; omega) _
    have hgone : unregistered.2.address? name = none := by
      rw [hunregistered, Table.address?_unregister, if_pos rfl]
    refine ⟨?_, by rw [hunregistered], ?_⟩
    · rw [run_resolve hname hshort fun other hother => ?_, hfound, Option.filter_some]
      rw [hfound] at hother
      exact Option.some.inj hother ▸ hline
    · rw [run_resolve hname hshort fun other hother => ?_, hgone, Option.filter_none]
      rw [hgone] at hother
      cases hother

/-- A later registration replaces an earlier one, and both are seen. -/
theorem resolve_tableAfter_twice :
    let lines := ["register n 127.0.0.1:1", "unregister m", "exit n"]
    let registered := (Client.register roundTrip "n" "127.0.0.1:2").run (tableAfter lines)
    (∀ line ∈ lines, IsReceived line) ∧
      ((Client.resolve roundTrip "n").run (tableAfter lines)).1 = .ok (some "127.0.0.1:1") ∧
        ((Client.resolve roundTrip "n").run registered.2).1 = .ok (some "127.0.0.1:2") := by
  have hlines : ∀ line ∈ ["register n 127.0.0.1:1", "unregister m", "exit n"], IsReceived line := by
    simp only [List.forall_mem_cons, List.not_mem_nil, false_implies, implies_true, and_true]
    exact ⟨⟨writeLine "register n 127.0.0.1:1", [], by decide +kernel⟩,
      ⟨writeLine "unregister m", [], by decide +kernel⟩,
      ⟨writeLine "exit n", [], by decide +kernel⟩⟩
  have htable := resolve_tableAfter (show IsWord "n" by decide) (by decide) hlines
  refine ⟨hlines, ?_, ?_⟩
  · rw [htable.1]
    decide +kernel
  · rw [(htable.2 "127.0.0.1:2" (by decide) (by decide +kernel)).1]
    decide +kernel

/-- An address that begins like a failure is not seen. -/
theorem resolve_tableAfter_error :
    let lines := ["register n error.example:7000"]
    (∀ line ∈ lines, IsReceived line) ∧ lastSaid "n" lines = some "error.example:7000" ∧
      ((Client.resolve roundTrip "n").run (tableAfter lines)).1 = .ok none := by
  refine ⟨List.forall_mem_singleton.2 ?_, by decide +kernel, by decide +kernel⟩
  exact ⟨writeLine "register n error.example:7000", [], by decide +kernel⟩

end BrokerCluster.Naming
