import BrokerCluster.Routing.Trie

/-!
# What a trie of patterns holds

A trie is seen here as a function from patterns to the queues bound under them:
`Trie.bound`. Adding a binding changes this function at one pattern, and the walk
without memory finds exactly the queues of the patterns that admit the key. The
branch of a segment that was never grown counts as an empty trie.
-/
namespace BrokerCluster.Routing

variable {κ : Type}

theorem mem_addUnique [DecidableEq κ] {q x : κ} {qs : List κ} :
    x ∈ addUnique q qs ↔ x ∈ qs ∨ x = q := by
  unfold addUnique
  split
  · next h =>
    constructor
    · exact Or.inl
    · rintro (hx | rfl)
      · exact hx
      · exact h
  · simp

theorem nodup_addUnique [DecidableEq κ] {q : κ} {qs : List κ} (h : qs.Nodup) :
    (addUnique q qs).Nodup := by
  unfold addUnique
  split
  · exact h
  · next hq => simpa [List.nodup_append] using ⟨h, fun a ha he => hq (he ▸ ha)⟩

theorem addUnique_of_mem [DecidableEq κ] {q : κ} {qs : List κ} (h : q ∈ qs) :
    addUnique q qs = qs := if_pos h

namespace Trie

/-- The queues bound under exactly these segments. -/
def bound (node : Trie κ) : List String → List κ
  | [] => node.queues
  | segment :: pattern => (node.child segment).bound pattern

@[simp] theorem bound_empty (pattern : List String) : (empty : Trie κ).bound pattern = [] := by
  induction pattern with
  | nil => rfl
  | cons segment pattern ih => exact ih

end Trie

namespace Branches

theorem insert_nil [DecidableEq κ] (q : κ) (pattern : List String) :
    (nil : Branches κ).insert q pattern = ofPattern q pattern := by
  cases pattern <;> rfl

/-- The grown branch is the old one, or a fresh one, with the rest of the pattern added. -/
theorem node?_insert_self [DecidableEq κ] (q : κ) (branches : Branches κ) (segment : String)
    (pattern : List String) :
    (branches.insert q (segment :: pattern)).node? segment =
      let old := (branches.node? segment).getD .empty
      some ⟨if pattern = [] then addUnique q old.queues else old.queues,
        old.branches.insert q pattern⟩ := by
  induction branches with
  | nil => simp [insert, ofPattern, node?, Trie.empty, insert_nil, addUnique]
  | cons s queues above others _ ih =>
    by_cases hs : s = segment
    · simp [insert, node?, hs]
    · simpa [insert, node?, hs] using ih

theorem node?_insert_of_ne [DecidableEq κ] (q : κ) (branches : Branches κ) {segment s : String}
    (pattern : List String) (h : segment ≠ s) :
    (branches.insert q (segment :: pattern)).node? s = branches.node? s := by
  induction branches with
  | nil => simp [insert, ofPattern, node?, h]
  | cons t queues above others _ ih =>
    by_cases ht : t = segment
    · subst ht
      simp [insert, node?, h]
    · simp only [insert, ht, if_false, node?, ih]

end Branches

namespace Trie

/-- One more binding is seen under its own pattern and nowhere else. -/
theorem bound_insert [DecidableEq κ] {pattern : List String} (hp : pattern ≠ []) (node : Trie κ)
    (q : κ) (path : List String) :
    (node.insert pattern q).bound path =
      if path = pattern then addUnique q (node.bound path) else node.bound path := by
  induction pattern generalizing node path with
  | nil => exact absurd rfl hp
  | cons segment pattern ih =>
    cases path with
    | nil => simp [insert, bound]
    | cons s path =>
      by_cases hs : segment = s
      · subst hs
        have hchild : (node.insert (segment :: pattern) q).child segment =
            ⟨if pattern = [] then addUnique q (node.child segment).queues
              else (node.child segment).queues, (node.child segment).branches.insert q pattern⟩ :=
          child_of_node? (Branches.node?_insert_self q node.branches segment pattern)
        rw [bound, hchild, bound]
        by_cases he : pattern = []
        · subst he
          cases path with
          | nil => simp [bound]
          | cons s path => simp [bound, child, Branches.insert]
        · have hrest := ih he (node.child segment) path
          simpa [he, insert] using hrest
      · have hchild : (node.insert (segment :: pattern) q).child s = node.child s := by
          simp only [child, insert, Branches.node?_insert_of_ne q node.branches pattern hs]
        have hne : s :: path ≠ segment :: pattern := fun he => hs (List.cons.inj he).1.symm
        rw [if_neg hne, bound, hchild, bound]

/-- An insertion changes what is bound under its own pattern only. -/
theorem mem_bound_insert [DecidableEq κ] {pattern : List String} (hp : pattern ≠ [])
    (node : Trie κ) (q x : κ) (path : List String) :
    x ∈ (node.insert pattern q).bound path ↔ x ∈ node.bound path ∨ (path = pattern ∧ x = q) := by
  rw [bound_insert hp]
  split
  · next he => simp [mem_addUnique, he]
  · next he => simp [he]

end Trie

theorem mem_rests {rest key : List String} : rest ∈ rests key ↔ rest <:+ key := by
  induction key with
  | nil => simp [rests]
  | cons segment key ih => simp [rests, ih, List.suffix_cons_iff]

/-- A pattern that begins with `#` admits a key if what follows admits some rest of it. -/
theorem matches_many_iff {pattern key : List String} :
    Matches (manySegments :: pattern) key ↔ ∃ rest ∈ rests key, Matches pattern rest := by
  simp only [mem_rests]
  constructor
  · intro h
    generalize hp : manySegments :: pattern = p at h
    induction h with
    | nil => cases hp
    | one => exact absurd (List.cons.inj hp).1 (by decide)
    | manyNone h =>
      cases hp
      exact ⟨_, List.suffix_rfl, h⟩
    | manyMore segment _ ih =>
      obtain ⟨rest, hrest, hm⟩ := ih hp
      exact ⟨rest, hrest.trans (List.suffix_cons segment _), hm⟩
    | literal hw =>
      rw [← (List.cons.inj hp).1] at hw
      exact absurd hw (by decide)
  · rintro ⟨rest, ⟨absorbed, rfl⟩, h⟩
    induction absorbed with
    | nil => exact .manyNone h
    | cons segment absorbed ih => exact .manyMore segment ih

theorem matches_nil_iff {key : List String} : Matches [] key ↔ key = [] := by
  constructor
  · intro h
    cases h
    rfl
  · rintro rfl
    exact .nil

/-- A first segment other than `#` admits one segment. -/
theorem matches_cons_iff {s : String} (hs : s ≠ manySegments) {pattern key : List String} :
    Matches (s :: pattern) key ↔
      ∃ segment rest, key = segment :: rest ∧ Matches pattern rest ∧
        (s = oneSegment ∨ (s = segment ∧ isWildcard segment = false)) := by
  constructor
  · intro h
    cases h with
    | one segment h => exact ⟨segment, _, rfl, h, .inl rfl⟩
    | manyNone => exact absurd rfl hs
    | manyMore => exact absurd rfl hs
    | literal hw h => exact ⟨s, _, rfl, h, .inr ⟨rfl, hw⟩⟩
  · rintro ⟨segment, rest, rfl, h, rfl | ⟨rfl, hw⟩⟩
    · exact .one segment h
    · exact .literal hw h

namespace Trie

theorem size_child_lt {node : Trie κ} {segment : String} (h : node.child segment ≠ empty) :
    (node.child segment).branches.size < node.branches.size := by
  cases hn : node.branches.node? segment with
  | none => exact absurd (child_of_node?_none hn) h
  | some next =>
    rw [child_of_node? hn]
    exact Branches.size_node?_lt hn

/-- The walk without memory finds the queues of the patterns that admit the key. -/
theorem mem_exhaust_iff (node : Trie κ) (key : List String) (q : κ) :
    q ∈ node.exhaust key ↔ ∃ pattern, q ∈ node.bound pattern ∧ Matches pattern key := by
  induction hn : node.branches.size using Nat.strongRecOn generalizing node key with
  | _ n ih =>
  have hchild : ∀ segment rest, q ∈ (node.child segment).exhaust rest ↔
      ∃ pattern, q ∈ (node.child segment).bound pattern ∧ Matches pattern rest := by
    intro segment rest
    by_cases he : node.child segment = empty
    · simp [he]
    · exact ih _ (hn ▸ size_child_lt he) _ _ rfl
  rw [exhaust_eq]
  constructor
  · intro hq
    rcases List.mem_append.1 hq with hmany | hq
    · obtain ⟨rest, hrest, hq⟩ := List.mem_flatMap.1 hmany
      obtain ⟨pattern, hq, hm⟩ := (hchild _ _).1 hq
      exact ⟨manySegments :: pattern, hq, matches_many_iff.2 ⟨rest, hrest, hm⟩⟩
    cases key with
    | nil => exact ⟨[], hq, .nil⟩
    | cons segment rest =>
      rcases List.mem_append.1 hq with hone | hliteral
      · obtain ⟨pattern, hq, hm⟩ := (hchild _ _).1 hone
        exact ⟨oneSegment :: pattern, hq, .one segment hm⟩
      · by_cases hw : isWildcard segment = true
        · simp [hw] at hliteral
        · rw [if_neg hw] at hliteral
          obtain ⟨pattern, hq, hm⟩ := (hchild _ _).1 hliteral
          exact ⟨segment :: pattern, hq, .literal (by simpa using hw) hm⟩
  · rintro ⟨pattern, hq, hm⟩
    cases pattern with
    | nil =>
      obtain rfl := matches_nil_iff.1 hm
      exact List.mem_append_right _ hq
    | cons s pattern =>
      by_cases hs : s = manySegments
      · subst hs
        obtain ⟨rest, hrest, hm⟩ := matches_many_iff.1 hm
        exact List.mem_append_left _
          (List.mem_flatMap.2 ⟨rest, hrest, (hchild _ _).2 ⟨pattern, hq, hm⟩⟩)
      · obtain ⟨segment, rest, rfl, hm, hcase⟩ := (matches_cons_iff hs).1 hm
        have hq := (hchild s rest).2 ⟨pattern, hq, hm⟩
        refine List.mem_append_right _ ?_
        rcases hcase with rfl | ⟨rfl, hw⟩
        · exact List.mem_append_left _ hq
        · exact List.mem_append_right _ (by simpa [hw] using hq)

end Trie

end BrokerCluster.Routing
