import BrokerCluster.Election.Peers
import BrokerCluster.Proofs.Text.Lines

/-!
# Requests and replies between brokers

The lines that a broker writes are read by its peers as they were meant, for every
id, and its replies are told apart by how they begin.
-/
namespace BrokerCluster.Election

open Text

theorem words_idLine {word : String} (hword : IsWord word) (id : BrokerId) :
    words (word ++ " " ++ int64Text id) = [word, int64Text id] := by
  have hjoin : word ++ " " ++ int64Text id = joinWords [word, int64Text id] := by
    rw [joinWords, String.intercalate_cons_cons, String.intercalate_singleton]
  rw [hjoin]
  refine words_joinWords fun w hw => ?_
  rcases List.mem_cons.1 hw with rfl | hw
  · exact hword
  · rw [List.mem_singleton.1 hw]
    exact isWord_int64Text id

theorem isWord_vote : IsWord "vote" := ⟨by decide, by simp [isBlank]⟩

theorem words_voteReply (voter granted : BrokerId) :
    words (voteReply voter granted) = ["vote", int64Text voter, int64Text granted] := by
  have hjoin : voteReply voter granted = joinWords ["vote", int64Text voter, int64Text granted] := by
    rw [joinWords, String.intercalate_cons_cons, String.intercalate_cons_cons,
      String.intercalate_singleton, voteReply, ← String.append_assoc, ← String.append_assoc]
    rfl
  rw [hjoin]
  refine words_joinWords fun w hw => ?_
  simp only [List.mem_cons, List.not_mem_nil, or_false] at hw
  rcases hw with rfl | rfl | rfl
  · exact isWord_vote
  · exact isWord_int64Text voter
  · exact isWord_int64Text granted

/-- A reply to `elect` grants the vote to the candidate that it names, and to no other. -/
theorem isVoteFor_voteReply (voter granted candidate : BrokerId) :
    isVoteFor (voteReply voter granted) candidate = true ↔ granted = candidate := by
  simp [isVoteFor, words_voteReply, readInt64?_int64Text]

theorem isWord_elect : IsWord "elect" := ⟨by decide, by simp [isBlank]⟩

theorem isWord_declare : IsWord "declare" := ⟨by decide, by simp [isBlank]⟩

theorem words_electLine (id : BrokerId) : words (electLine id) = ["elect", int64Text id] :=
  words_idLine isWord_elect id

theorem words_declareLine (id : BrokerId) : words (declareLine id) = ["declare", int64Text id] :=
  words_idLine isWord_declare id

@[simp] theorem ofLine_electLine (id : BrokerId) : Request.ofLine (electLine id) = .elect id := by
  simp [Request.ofLine, words_electLine, idArgument?, readInt64?_int64Text]

@[simp] theorem ofLine_declareLine (id : BrokerId) :
    Request.ofLine (declareLine id) = .declare id := by
  simp [Request.ofLine, words_declareLine, idArgument?, readInt64?_int64Text]

@[simp] theorem isExpected_none (expected : String) : isExpected expected none = false := rfl

theorem isExpected_append (expected rest : String) :
    isExpected expected (some (expected ++ rest)) = true :=
  String.startsWith_string_iff.2 (by simp)

@[simp] theorem isExpected_accept : isExpected acceptReply (some acceptReply) = true := by
  simpa using isExpected_append acceptReply ""

@[simp] theorem isExpected_ack (id : BrokerId) : isExpected "ack" (some (ackReply id)) = true := by
  have hsplit : ackReply id = "ack" ++ (" " ++ int64Text id) := by
    rw [← String.append_assoc]
    rfl
  rw [hsplit]
  exact isExpected_append "ack" _

end BrokerCluster.Election
