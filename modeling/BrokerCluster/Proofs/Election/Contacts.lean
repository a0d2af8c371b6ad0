import BrokerCluster.Election.Conduct

/-!
# Whom a broker asks

What a peer replies may depend on everything that was asked before. So how far a broker gets
through its peers, and what it concludes, is said through the replies that it gets if it asks them
one after another: all of them, or all up to the first whose reply is the one hoped for.
-/
namespace BrokerCluster.Election

open Text

/-- What the peer at a place replies if all peers up to it are asked one after another. -/
def replyAt (replies : Replies) (past : List (Peer × String)) (line : String) (peers : List Peer)
    (i : Nat) : Option String :=
  replies (past ++ (peers.take (i + 1)).map (·, line))

def Begins (expected : String) (reply : Option String) : Prop :=
  ∃ text, reply = some text ∧ expected.toList <+: text.toList

/-- A reply came, and its third word is the number of a broker. -/
def Grants (candidate : BrokerId) (reply : Option String) : Prop :=
  ∃ text token, reply = some text ∧ (words text)[2]? = some token ∧
    readInt64? token = some candidate

theorem isExpected_iff {expected : String} {reply : Option String} :
    isExpected expected reply = true ↔ Begins expected reply := by
  cases reply with
  | none => simp [isExpected, Begins]
  | some text =>
    rw [isExpected, Option.any_some]
    exact String.startsWith_string_iff.trans (by simp [Begins])

theorem any_isVoteFor_iff {candidate : BrokerId} {reply : Option String} :
    reply.any (isVoteFor · candidate) = true ↔ Grants candidate reply := by
  cases reply with
  | none => simp [Grants]
  | some text => simp [Grants, isVoteFor, Option.bind_eq_some_iff]

instance (expected : String) : DecidablePred (Begins expected) :=
  fun _ => decidable_of_iff _ isExpected_iff

instance (candidate : BrokerId) : DecidablePred (Grants candidate) :=
  fun _ => decidable_of_iff _ any_isVoteFor_iff

theorem decide_begins (expected : String) (reply : Option String) :
    decide (Begins expected reply) = isExpected expected reply := by
  rw [Bool.eq_iff_iff, decide_eq_true_iff, isExpected_iff]

theorem decide_grants (candidate : BrokerId) (reply : Option String) :
    decide (Grants candidate reply) = reply.any (isVoteFor · candidate) := by
  rw [Bool.eq_iff_iff, decide_eq_true_iff, any_isVoteFor_iff]

section

variable {replies : Replies} {past : List (Peer × String)} {line : String}

theorem replyAt_zero (peer : Peer) (rest : List Peer) :
    replyAt replies past line (peer :: rest) 0 = replies (past ++ [(peer, line)]) := rfl

theorem replyAt_succ (peer : Peer) (rest : List Peer) (i : Nat) :
    replyAt replies past line (peer :: rest) (i + 1) =
      replyAt replies (past ++ [(peer, line)]) line rest i := by
  rw [replyAt, replyAt, List.take_succ_cons, List.map_cons, List.append_assoc,
    List.singleton_append]

end

namespace Conduct

variable {conduct : Conduct} {replies : Replies} {line expected : String}

/-- The conduct of a broker that has asked one more peer. -/
def asking (conduct : Conduct) (line : String) (peer : Peer) : Conduct :=
  { conduct with asked := conduct.asked ++ [(peer, line)] }

/-- The conduct of a broker that has asked these peers as well, in order and each once. -/
def askingAll (conduct : Conduct) (line : String) (peers : List Peer) : Conduct :=
  { conduct with asked := conduct.asked ++ peers.map (·, line) }

theorem askingAll_nil (conduct : Conduct) (line : String) :
    conduct.askingAll line [] = conduct := by
  rw [askingAll, List.map_nil, List.append_nil]

theorem askingAll_cons (conduct : Conduct) (line : String) (peer : Peer) (rest : List Peer) :
    conduct.askingAll line (peer :: rest) = (conduct.asking line peer).askingAll line rest := by
  simp [asking, askingAll]

/-- The broker asks its peers up to the first whose reply begins as expected, or all of them if no
reply does. The result says which of the two it was. -/
def StopsAtFirst (conduct : Conduct) (replies : Replies) (line expected : String)
    (peers : List Peer) (outcome : Bool × Conduct) : Prop :=
  (∃ i < peers.length, Begins expected (replyAt replies conduct.asked line peers i) ∧
    (∀ j < i, ¬ Begins expected (replyAt replies conduct.asked line peers j)) ∧
      outcome = (true, conduct.askingAll line (peers.take (i + 1)))) ∨
  (∀ i < peers.length, ¬ Begins expected (replyAt replies conduct.asked line peers i)) ∧
    outcome = (false, conduct.askingAll line peers)

/-- A peer whose reply does not begin as expected is passed. -/
theorem StopsAtFirst.cons {peer : Peer} {rest : List Peer} {outcome : Bool × Conduct}
    (hfirst : ¬ Begins expected (replies (conduct.asked ++ [(peer, line)])))
    (h : (conduct.asking line peer).StopsAtFirst replies line expected rest outcome) :
    conduct.StopsAtFirst replies line expected (peer :: rest) outcome := by
  rcases h with ⟨i, hi, hexpected, hbefore, rfl⟩ | ⟨hall, rfl⟩
  · refine .inl ⟨i + 1, Nat.succ_lt_succ hi, replyAt_succ peer rest i ▸ hexpected, ?_, ?_⟩
    · intro j hj
      cases j with
      | zero => exact hfirst
      | succ j => exact replyAt_succ peer rest j ▸ hbefore j (Nat.lt_of_succ_lt_succ hj)
    · rw [List.take_succ_cons, askingAll_cons]
  · refine .inr ⟨fun i hi => ?_, by rw [askingAll_cons]⟩
    cases i with
    | zero => exact hfirst
    | succ i => exact replyAt_succ peer rest i ▸ hall i (Nat.lt_of_succ_lt_succ hi)

/-- The first peer is asked in any case, the others only if it does not reply as expected. -/
theorem run_askUntil_cons (peer : Peer) (rest : List Peer) :
    (askUntil (interpreter replies).ask line expected (peer :: rest)).run conduct =
      if Begins expected (replies (conduct.asked ++ [(peer, line)])) then
        (true, conduct.asking line peer)
      else (askUntil (interpreter replies).ask line expected rest).run
        (conduct.asking line peer) := by
  change (if isExpected expected (replies (conduct.asked ++ [(peer, line)])) then pure true
    else askUntil (interpreter replies).ask line expected rest : StateM Conduct Bool).run
      (conduct.asking line peer) = _
  simp only [isExpected_iff]
  split <;> rfl

/-- A reply may depend on what was asked before, so the induction is over the peers left, from any
conduct. -/
theorem stopsAtFirst_askUntil (conduct : Conduct) (replies : Replies) (line expected : String)
    (peers : List Peer) : conduct.StopsAtFirst replies line expected peers
      ((askUntil (interpreter replies).ask line expected peers).run conduct) := by
  induction peers generalizing conduct with
  | nil => exact .inr ⟨fun _ hi => absurd hi (Nat.not_lt_zero _), by rw [askingAll_nil]; rfl⟩
  | cons peer rest ih =>
    rw [run_askUntil_cons]
    by_cases hfirst : Begins expected (replies (conduct.asked ++ [(peer, line)]))
    · rw [if_pos hfirst]
      exact .inl ⟨0, Nat.succ_pos _, hfirst, fun j hj => absurd hj (Nat.not_lt_zero j), rfl⟩
    · rw [if_neg hfirst]
      exact .cons hfirst (ih _)

/-- A reply is counted whatever the others are; all peers are asked. -/
theorem run_countReplies_cons (test : Option String → Bool) (peer : Peer) (rest : List Peer) :
    (countReplies (interpreter replies).ask line test (peer :: rest)).run conduct =
      let (others, after) := (countReplies (interpreter replies).ask line test rest).run
        (conduct.asking line peer)
      (if test (replies (conduct.asked ++ [(peer, line)])) then others + 1 else others, after) :=
  rfl

/-- Every peer is asked, and the replies that pass a test are counted. -/
theorem run_countReplies (conduct : Conduct) (replies : Replies) (line : String)
    (test : Option String → Bool) (peers : List Peer) :
    (countReplies (interpreter replies).ask line test peers).run conduct =
      ((List.range peers.length).countP fun i =>
        test (replyAt replies conduct.asked line peers i), conduct.askingAll line peers) := by
  induction peers generalizing conduct with
  | nil => rw [askingAll_nil]; rfl
  | cons peer rest ih =>
    have hcount : ((List.range (rest.length + 1)).countP fun i =>
        test (replyAt replies conduct.asked line (peer :: rest) i)) =
      ((List.range rest.length).countP fun i =>
        test (replyAt replies (conduct.asking line peer).asked line rest i)) +
        if test (replies (conduct.asked ++ [(peer, line)])) then 1 else 0 := by
      rw [List.range_succ_eq_map, List.countP_cons, List.countP_map, replyAt_zero]
      refine congrArg (· + _) (List.countP_congr fun i _ => ?_)
      rw [Function.comp_apply, replyAt_succ]
      rfl
    rw [run_countReplies_cons, ih, List.length_cons, hcount, askingAll_cons]
    dsimp only
    split <;> rfl

/-- **Whom a broker asks.** It asks one peer after another until a reply begins as expected; so it
does with those of its peers that have a greater id; it asks all of them, and counts the replies
that begin as expected; or it asks all of them and finds out whether more than half of them gave it
their vote. A peer that does not reply counts as one of them. -/
theorem contacts_exact (conduct : Conduct) (replies : Replies) (own : BrokerId)
    (line expected : String) (peers : List Peer) :
    let ask := (interpreter replies).ask
    let reply := replyAt replies conduct.asked line peers
    conduct.StopsAtFirst replies line expected peers
      ((askUntil ask line expected peers).run conduct) ∧
    (askHigher ask own line expected peers).run conduct =
      (askUntil ask line expected (peers.filter fun peer => own < peer.id)).run conduct ∧
    (askAll ask line expected peers).run conduct =
      ((List.range peers.length).countP fun i => Begins expected (reply i),
        conduct.askingAll line peers) ∧
    (askForVotes ask own line peers).run conduct =
      (decide (peers.length < 2 * (List.range peers.length).countP fun i => Grants own (reply i)),
        conduct.askingAll line peers) := by
  intro ask reply
  refine ⟨stopsAtFirst_askUntil .., rfl, ?all, ?votes⟩
  case all =>
    simp only [decide_begins]
    exact run_countReplies conduct replies line (isExpected expected) peers
  case votes =>
    simp only [decide_grants]
    rw [askForVotes, StateT.run_bind, run_countReplies]
    refine Prod.ext (decide_eq_decide.2 ?_) rfl
    dsimp only [reply]
    omega

/-- A peer that can be reached only from the second time on: one vote of two is not enough, two of
three are. -/
example :
    let ask := (interpreter fun asked => if asked.length = 1 then none else some "vote 2 1").ask
    let elected (peers : List Peer) :=
      ((askForVotes ask 1 "elect 1" peers).run ⟨.fresh 0, [], []⟩).1
    elected (List.replicate 2 ⟨2, "peer", 1⟩) = false ∧
      elected (List.replicate 3 ⟨2, "peer", 1⟩) = true := by
  decide +kernel

end Conduct

end BrokerCluster.Election
