import BrokerCluster.Proofs.Election.Requests
import BrokerCluster.Proofs.Text.Numerals

/-!
# The format of requests

What a broker writes is read as it was meant, for every id. The other way round, a line is
taken for a request exactly if it is laid out like one: white space around and between its
words, signs and leading zeros do not matter, anything else does.
-/
namespace BrokerCluster.Election

open Text

/-- A line of two words, a verb and a numeral of an id. -/
def Calls (line verb : String) (id : BrokerId) : Prop :=
  ∃ token, words line = [verb, token] ∧ IsNumeral token.toList id.toInt

def usageReply (verb : String) : String := "error usage: " ++ verb ++ " <id>"

/-- An id is given by one word, a numeral of it, and by nothing else. -/
theorem idArgument?_eq_some_iff {arguments : List String} {id : BrokerId} :
    idArgument? arguments = some id ↔
      ∃ token, arguments = [token] ∧ IsNumeral token.toList id.toInt := by
  unfold idArgument?
  split
  · next text =>
    rw [readInt64?_eq_some_iff]
    refine ⟨fun h => ⟨text, rfl, h⟩, ?_⟩
    rintro ⟨token, htoken, h⟩
    rwa [List.singleton_inj.1 htoken]
  · next hnot =>
    refine ⟨fun h => (by cases h), ?_⟩
    rintro ⟨token, rfl, -⟩
    exact absurd rfl (hnot token)

/-- A call is seen at its first word, once the words of the line are known. -/
theorem calls_iff {line first verb : String} {arguments : List String}
    (hwords : words line = first :: arguments) {id : BrokerId} :
    Calls line verb id ↔ first = verb ∧ idArgument? arguments = some id := by
  rw [idArgument?_eq_some_iff]
  constructor
  · rintro ⟨token, hline, hnumeral⟩
    obtain ⟨hfirst, harguments⟩ := List.cons.inj (hwords.symm.trans hline)
    exact ⟨hfirst, token, harguments, hnumeral⟩
  · rintro ⟨rfl, token, rfl, hnumeral⟩
    exact ⟨token, hwords, hnumeral⟩

def requestOf (verb : String) (make : BrokerId → Request) (arguments : List String) : Request :=
  (idArgument? arguments).elim (.malformed (usageReply verb)) make

theorem ofLine_nil {line : String} (hwords : words line = []) : Request.ofLine line = .unknown := by
  rw [Request.ofLine, hwords]

/-- The first word of a line decides what kind of request it is. -/
theorem ofLine_cons {line first : String} {arguments : List String}
    (hwords : words line = first :: arguments) :
    Request.ofLine line =
      if first = "ping" then .ping
      else if first = "elect" then requestOf "elect" .elect arguments
      else if first = "declare" then requestOf "declare" .declare arguments
      else .unknown := by
  rw [Request.ofLine, hwords, requestOf, requestOf]
  split
  · next heq => rw [(List.cons.inj heq).1, if_pos rfl]
  · next heq =>
    obtain ⟨rfl, rfl⟩ := List.cons.inj heq
    rw [if_neg (by decide), if_pos rfl]
    cases idArgument? arguments <;> rfl
  · next heq =>
    obtain ⟨rfl, rfl⟩ := List.cons.inj heq
    rw [if_neg (by decide), if_neg (by decide), if_pos rfl]
    cases idArgument? arguments <;> rfl
  · next hping helect hdeclare =>
    rw [if_neg fun h => hping arguments (by rw [h]), if_neg fun h => helect arguments (by rw [h]),
      if_neg fun h => hdeclare arguments (by rw [h])]

theorem not_calls_of_nil {line : String} (hwords : words line = []) (verb : String)
    (id : BrokerId) : ¬ Calls line verb id := by
  rintro ⟨token, hline, -⟩
  rw [hwords] at hline
  cases hline

/-- **The format of requests is exact.** The id in a line that a broker writes comes back as it
was, and so does the one in its vote. A line is a call for an election or an announcement
exactly if it consists of the verb and a numeral of the id. Of the other lines, one that begins
with such a verb is answered with its usage, `ping` may be followed by anything, and all the
rest asks for nothing known. -/
theorem ofLine_exact (voter id candidate : BrokerId) (line : String) :
    (Request.ofLine (electLine id) = .elect id ∧ Request.ofLine (declareLine id) = .declare id ∧
      (isVoteFor (voteReply voter id) candidate = true ↔ candidate = id)) ∧
    (Request.ofLine line = .elect id ↔ Calls line "elect" id) ∧
    (Request.ofLine line = .declare id ↔ Calls line "declare" id) ∧
    (Request.ofLine line = .ping ↔ (words line).head? = some "ping") ∧
    (∀ reply, Request.ofLine line = .malformed reply ↔
      ∃ verb ∈ ["elect", "declare"], (words line).head? = some verb ∧
        (∀ other, ¬ Calls line verb other) ∧ reply = usageReply verb) ∧
    (Request.ofLine line = .unknown ↔
      ∀ verb ∈ ["ping", "elect", "declare"], (words line).head? ≠ some verb) := by
  refine ⟨⟨ofLine_electLine id, ofLine_declareLine id, ?_⟩, ?_⟩
  · rw [isVoteFor_voteReply, eq_comm]
  cases hwords : words line with
  | nil =>
    rw [ofLine_nil hwords]
    simp [not_calls_of_nil hwords]
  | cons first arguments =>
    rw [ofLine_cons hwords]
    simp only [calls_iff hwords]
    by_cases hping : first = "ping"
    · simp [hping]
    by_cases helect : first = "elect"
    · subst helect
      cases hid : idArgument? arguments <;> simp [requestOf, hid, eq_comm]
    by_cases hdeclare : first = "declare"
    · subst hdeclare
      cases hid : idArgument? arguments <;> simp [requestOf, hid, eq_comm]
    · simp [hping, helect, hdeclare]

/-- Neither white space nor a needless sign or zero makes it another id. -/
example : Request.ofLine "\u00a0declare  -007\t" = .declare (-7) := by decide +kernel

end BrokerCluster.Election
