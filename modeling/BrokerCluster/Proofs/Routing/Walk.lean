import BrokerCluster.Proofs.Routing.Patterns

/-!
# The walk that remembers

Skipping a pair of node and rest is harmless because everything that can be found
from there is already in the list. The pairs whose walk is still going on are the
exception; they lie strictly above the current node, so the walk never meets them
again. `Settled` states this with the open pairs as a parameter, each walk keeps
it, and the whole walk lists what the walk without memory meets, each queue where
it is met first.
-/
namespace BrokerCluster.Routing

variable {κ : Type}

section Unique

variable [DecidableEq κ]

theorem addAllUnique_append (seen xs ys : List κ) :
    addAllUnique seen (xs ++ ys) = addAllUnique (addAllUnique seen xs) ys :=
  List.foldl_append

theorem mem_addAllUnique {seen qs : List κ} {x : κ} :
    x ∈ addAllUnique seen qs ↔ x ∈ seen ∨ x ∈ qs := by
  induction qs generalizing seen with
  | nil => simp [addAllUnique]
  | cons q qs ih =>
    have h : addAllUnique seen (q :: qs) = addAllUnique (addUnique q seen) qs := rfl
    rw [h, ih, mem_addUnique, List.mem_cons, or_assoc]

theorem nodup_addAllUnique {seen : List κ} (h : seen.Nodup) (qs : List κ) :
    (addAllUnique seen qs).Nodup := by
  induction qs generalizing seen with
  | nil => exact h
  | cons q qs ih => exact ih (nodup_addUnique h)

theorem addAllUnique_of_subset {seen qs : List κ} (h : ∀ q ∈ qs, q ∈ seen) :
    addAllUnique seen qs = seen := by
  induction qs with
  | nil => rfl
  | cons q qs ih =>
    have hq : addUnique q seen = seen := addUnique_of_mem (h q (by simp))
    have hqs : ∀ x ∈ qs, x ∈ seen := fun x hx => h x (by simp [hx])
    calc addAllUnique seen (q :: qs) = addAllUnique (addUnique q seen) qs := rfl
      _ = seen := by rw [hq, ih hqs]

end Unique

namespace Trie

/-- The node at a place; the last segment comes first. -/
def reach (root : Trie κ) : List String → Trie κ
  | [] => root
  | segment :: place => (reach root place).child segment

/-- A node and how much of the key is left there. -/
abbrev Spot := List String × Nat

/-- The queues that can be found from a spot. -/
def within (root : Trie κ) (key : List String) (spot : Spot) : List κ :=
  (root.reach spot.1).exhaust (key.drop (key.length - spot.2))

theorem within_of_suffix {root : Trie κ} {key place rest : List String} (h : rest <:+ key) :
    root.within key (place, rest.length) = (root.reach place).exhaust rest := by
  rw [within, ← List.suffix_iff_eq_drop.1 h]

/-- Everything that can be found from a spot the walk has been at is found, the open spots apart. -/
def Settled (root : Trie κ) (key : List String) (opened : List Spot) (walk : Walk κ) : Prop :=
  ∀ spot, spot ∈ walk.visited → spot ∉ opened → ∀ q ∈ root.within key spot, q ∈ walk.found

variable [DecidableEq κ]

/-- A part of a walk finds these queues and keeps the rest settled. -/
structure Finds (root : Trie κ) (key : List String) (opened : List Spot) (before : Walk κ)
    (queues : List κ) (after : Walk κ) : Prop where
  found : after.found = addAllUnique before.found queues
  settled : root.Settled key opened after

variable {root node : Trie κ} {key : List String} {opened : List Spot}

theorem Finds.trans {before middle after : Walk κ} {first second : List κ}
    (h₁ : root.Finds key opened before first middle)
    (h₂ : root.Finds key opened middle second after) :
    root.Finds key opened before (first ++ second) after where
  found := by rw [h₂.found, h₁.found, addAllUnique_append]
  settled := h₂.settled

theorem Finds.nothing {walk : Walk κ} (h : root.Settled key opened walk) :
    root.Finds key opened walk [] walk where
  found := rfl
  settled := h

/-- What holds of each walk from the end of a branch holds of the walks along it. -/
theorem finds_walkBranch {segment : String} {place : List String} {choices : List (List String)}
    {before : Walk κ}
    (hnext : ∀ next rest walk, node.branches.node? segment = some next → rest ∈ choices →
      root.Settled key opened walk →
      root.Finds key opened walk (next.exhaust rest) (next.walk (segment :: place) rest walk))
    (hb : root.Settled key opened before) :
    root.Finds key opened before (choices.flatMap (node.child segment).exhaust)
      (node.walkBranch segment place choices before) := by
  unfold walkBranch
  split
  · next next hn =>
    rw [child_of_node? hn]
    induction choices generalizing before with
    | nil => exact .nothing hb
    | cons rest choices ih =>
      have hfirst := hnext next rest before hn (by simp) hb
      have hlater := ih (fun next' rest' walk hn' hr => hnext next' rest' walk hn' (by simp [hr]))
        hfirst.settled
      exact hfirst.trans hlater
  · next hn =>
    have hnone : choices.flatMap (node.child segment).exhaust = [] := by
      simp [child_of_node?_none hn]
    rw [hnone]
    exact .nothing hb

/-- **A walk lists what the walk without memory meets**, after what was found before. -/
theorem finds_walk {place rest : List String} {before : Walk κ}
    (hplace : root.reach place = node) (hrest : rest <:+ key)
    (hopened : ∀ spot ∈ opened, spot.1.length < place.length)
    (hb : root.Settled key opened before) :
    root.Finds key opened before (node.exhaust rest) (node.walk place rest before) := by
  induction hn : node.branches.size using Nat.strongRecOn
    generalizing node place rest before opened with
  | _ n ih =>
  have hwithin : root.within key (place, rest.length) = node.exhaust rest := by
    rw [within_of_suffix hrest, hplace]
  rw [walk_eq]
  split
  · next hv =>
    have hclosed : (place, rest.length) ∉ opened := fun ho => Nat.lt_irrefl _ (hopened _ ho)
    have hall := hb _ hv hclosed
    rw [hwithin] at hall
    exact ⟨(addAllUnique_of_subset hall).symm, hb⟩
  -- While the branches are walked, this spot is one of the open ones.
  · let spot : Spot := (place, rest.length)
    let start : Walk κ := ⟨before.visited.insert spot, before.found⟩
    have hdeeper : ∀ s ∈ spot :: opened, s.1.length < place.length + 1 := by
      intro s hs
      rcases List.mem_cons.1 hs with rfl | hs
      · exact Nat.lt_succ_self _
      · exact Nat.lt_succ_of_lt (hopened s hs)
    have hstart : root.Settled key (spot :: opened) start := by
      intro s hs ho
      rw [List.mem_cons, not_or] at ho
      have hs' : s ∈ before.visited := by
        rcases Std.HashSet.mem_insert.1 hs with he | hs
        · exact absurd (eq_of_beq he).symm ho.1
        · exact hs
      exact hb s hs' ho.2
    have hbranch : ∀ segment choices walk, (∀ r ∈ choices, r <:+ key) →
        root.Settled key (spot :: opened) walk →
        root.Finds key (spot :: opened) walk (choices.flatMap (node.child segment).exhaust)
          (node.walkBranch segment place choices walk) := by
      intro segment choices walk hchoices hw
      refine finds_walkBranch (fun next r w hnode hr hw => ?_) hw
      have hreach : root.reach (segment :: place) = next := by
        rw [reach, hplace, child_of_node? hnode]
      exact ih _ (hn ▸ Branches.size_node?_lt hnode) hreach (hchoices r hr) hdeeper hw rfl
    have hmany := hbranch manySegments (rests rest) start
      (fun r hr => (mem_rests.1 hr).trans hrest) hstart
    have hclose : ∀ after, root.Finds key (spot :: opened) start (node.exhaust rest) after →
        root.Finds key opened before (node.exhaust rest) after := by
      intro after h
      refine ⟨h.found, fun s hs ho q hq => ?_⟩
      by_cases he : s = spot
      · subst he
        rw [hwithin] at hq
        rw [h.found]
        exact mem_addAllUnique.2 (.inr hq)
      · exact h.settled s hs (by simp [he, ho]) q hq
    apply hclose
    rw [exhaust_eq]
    refine hmany.trans ?_
    cases rest with
    | nil =>
      refine ⟨rfl, fun s hs ho q hq => ?_⟩
      exact mem_addAllUnique.2 (.inl (hmany.settled s hs ho q hq))
    | cons segment rest =>
      have htail : ∀ r ∈ [rest], r <:+ key := by
        intro r hr
        rw [List.mem_singleton.1 hr]
        exact (List.suffix_cons segment rest).trans hrest
      have hone := hbranch oneSegment [rest] _ htail hmany.settled
      simp only [List.flatMap_singleton] at hone
      by_cases hw : isWildcard segment = true
      · simp only [exhaustNext, walkNext, hw, if_true, List.append_nil]
        exact hone
      · have hliteral := hbranch segment [rest] _ htail hone.settled
        simp only [List.flatMap_singleton] at hliteral
        simp only [exhaustNext, walkNext, hw]
        exact hone.trans hliteral

/-- Resolving lists what the walk without memory meets, each queue where it is met first. -/
theorem resolve_eq_exhaust (trie : Trie κ) (key : List String) :
    trie.resolve key = addAllUnique [] (trie.exhaust key) := by
  have hempty : trie.Settled key [] ⟨∅, []⟩ := fun spot hs => absurd hs Std.HashSet.not_mem_empty
  have hwalk : trie.Finds key [] ⟨∅, []⟩ (trie.exhaust key) (trie.walk [] key ⟨∅, []⟩) :=
    finds_walk rfl List.suffix_rfl (List.forall_mem_nil _) hempty
  exact hwalk.found

theorem nodup_resolve (trie : Trie κ) (key : List String) : (trie.resolve key).Nodup := by
  rw [resolve_eq_exhaust]
  exact nodup_addAllUnique List.nodup_nil _

/-- **The walk finds a queue exactly if** it is bound under a pattern that admits the key. -/
theorem mem_resolve_iff (trie : Trie κ) (key : List String) (q : κ) :
    q ∈ trie.resolve key ↔ ∃ pattern, q ∈ trie.bound pattern ∧ Matches pattern key := by
  rw [resolve_eq_exhaust, mem_addAllUnique, mem_exhaust_iff]
  simp

end Trie

end BrokerCluster.Routing
