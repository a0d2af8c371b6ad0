import Mathlib.Data.List.Induction
import BrokerCluster.Proofs.Routing.Bindings

/-!
# The order in which queues are found

The order in which a key finds its queues is the order of delivery to them. It is that
of the walk that remembers nothing: what the memory skips was listed before, so it can
be dropped from the list without changing which occurrence of a queue comes first.
-/
namespace BrokerCluster.Routing

variable {κ : Type} [DecidableEq κ]

/-- Adding elements one by one keeps the first occurrence of each. -/
theorem addAllUnique_nil (qs : List κ) : addAllUnique [] qs = qs.eraseDups := by
  induction qs using List.reverseRecOn with
  | nil => rfl
  | append_singleton qs q ih =>
    rw [addAllUnique_append, ih, List.eraseDups_append]
    by_cases hq : q ∈ qs
    · have hfound : q ∈ qs.eraseDups := List.mem_eraseDups.2 hq
      have hnone : [q].removeAll qs = [] := by simp [List.removeAll, hq]
      rw [hnone, List.eraseDups_nil, List.append_nil]
      exact addUnique_of_mem hfound
    · have hnew : q ∉ qs.eraseDups := fun hfound => hq (List.mem_eraseDups.1 hfound)
      have hone : [q].removeAll qs = [q] := by simp [List.removeAll, hq]
      rw [hone]
      exact if_neg hnew

/-- The trie that some bindings grow, the oldest first. -/
def Trie.ofBindings (history : List (String × κ)) : Trie κ :=
  history.foldl (fun trie binding => trie.insert (segments binding.1) binding.2) Trie.empty

namespace Bindings

/-- Bindings under patterns stay a trie, into which each is inserted in turn. -/
theorem after_topic (history : List (String × κ)) :
    after .topic history = topic (Trie.ofBindings history) := by
  induction history using List.reverseRecOn with
  | nil => rfl
  | append_singleton history binding ih =>
    rw [after, List.foldl_append, Trie.ofBindings, List.foldl_append]
    exact congrArg (bind binding.1 binding.2) ih

/-- **The walk that remembers lists what the exhaustive walk lists**, in the same order and each
queue where it is first met. -/
theorem resolve_topic_eq_eraseDups (history : List (String × κ)) (key : String) :
    (after .topic history).resolve key =
      ((Trie.ofBindings history).exhaust (segments key)).eraseDups := by
  rw [after_topic, resolve, Trie.resolve_eq_exhaust, addAllUnique_nil]

end Bindings

end BrokerCluster.Routing
