import BrokerCluster.Proofs.Routing.Order

/-!
# Where kinds of exchanges agree

A binding under a pattern without wildcards is one under an exact key, and a binding under
the pattern `#` alone is one under no key at all. So a trie agrees with the exact keys as
long as it has seen no wildcard, and with a plain list of queues as long as it has seen
nothing but `#`: not only on which queues are found, but on their order too. Whatever the
kind, a binding that is there already changes nothing.
-/
namespace BrokerCluster.Routing

variable {κ : Type}

namespace Trie

theorem exhaust_eq_nil {node : Trie κ} (h : ∀ path, node.bound path = []) (key : List String) :
    node.exhaust key = [] := by
  refine List.eq_nil_iff_forall_not_mem.2 fun q hq => ?_
  obtain ⟨pattern, hbound, -⟩ := (mem_exhaust_iff node key q).1 hq
  rw [h pattern] at hbound
  cases hbound

/-- Where no wildcard is bound, a walk finds what is bound under the very segments of the key. -/
theorem exhaust_eq_bound {node : Trie κ}
    (h : ∀ path, path.any isWildcard = true → node.bound path = []) (key : List String) :
    node.exhaust key = node.bound key := by
  have hchild : ∀ segment, isWildcard segment = true → ∀ rest,
      (node.child segment).exhaust rest = [] := by
    intro segment hsegment rest
    exact exhaust_eq_nil (fun path => h (segment :: path) (by simp [hsegment])) rest
  have hmany : (rests key).flatMap (node.child manySegments).exhaust = [] := by
    simp [hchild manySegments (by decide)]
  rw [exhaust_eq, hmany, List.nil_append]
  cases key with
  | nil => rfl
  | cons segment rest =>
    rw [exhaustNext, hchild oneSegment (by decide), List.nil_append]
    split
    · next hsegment => exact (h (segment :: rest) (by simp [hsegment])).symm
    · exact exhaust_eq_bound (fun path hpath => h (segment :: path) (by simp [hpath])) rest

/-- At a node from which nothing grows only the end of the key is found. -/
theorem exhaust_of_leaf {node : Trie κ} (h : ∀ path, path ≠ [] → node.bound path = [])
    (key : List String) : node.exhaust key = if key = [] then node.queues else [] := by
  have hchild : ∀ segment rest, (node.child segment).exhaust rest = [] := fun segment =>
    exhaust_eq_nil fun path => h (segment :: path) (List.cons_ne_nil segment path)
  have hmany : (rests key).flatMap (node.child manySegments).exhaust = [] := by simp [hchild]
  rw [exhaust_eq, hmany, List.nil_append]
  cases key with
  | nil => rfl
  | cons segment rest => simp [exhaustNext, hchild]

theorem flatMap_rests (queues : List κ) (key : List String) :
    (rests key).flatMap (fun rest => if rest = [] then queues else []) = queues := by
  induction key with
  | nil => simp [rests]
  | cons segment rest ih => simpa [rests] using ih

/-- Where only `#` is bound, every key finds what is bound under it. -/
theorem exhaust_of_many {node : Trie κ}
    (h : ∀ path, path ≠ [manySegments] → node.bound path = []) (key : List String) :
    node.exhaust key = node.bound [manySegments] := by
  have hleaf : (node.child manySegments).exhaust =
      fun rest => if rest = [] then node.bound [manySegments] else [] := by
    refine funext fun rest => exhaust_of_leaf (fun path hpath => ?_) rest
    exact h (manySegments :: path) (by simp [hpath])
  have hchild : ∀ segment, segment ≠ manySegments → ∀ rest,
      (node.child segment).exhaust rest = [] := fun segment hsegment =>
    exhaust_eq_nil fun path => h (segment :: path) fun he => hsegment (List.cons.inj he).1
  have hnext : node.exhaustNext key = [] := by
    cases key with
    | nil => exact h [] (List.cons_ne_nil _ _).symm
    | cons segment rest =>
      rw [exhaustNext, hchild oneSegment (by decide), List.nil_append]
      split
      · rfl
      · next hsegment =>
        exact hchild segment (fun he => hsegment (by rw [he]; decide)) rest
  rw [exhaust_eq, hleaf, flatMap_rests, hnext, List.append_nil]

end Trie

variable [DecidableEq κ]

theorem eraseDups_concat (qs : List κ) (q : κ) :
    (qs ++ [q]).eraseDups = addUnique q qs.eraseDups := by
  rw [← addAllUnique_nil, ← addAllUnique_nil, addAllUnique_append]
  rfl

theorem eraseDups_eraseDups (qs : List κ) : qs.eraseDups.eraseDups = qs.eraseDups := by
  induction qs using List.reverseRecOn with
  | nil => rfl
  | append_singleton qs q ih =>
    rw [eraseDups_concat, addUnique]
    split
    · exact ih
    · next hq => rw [eraseDups_concat, ih, addUnique, if_neg hq]

/-- The queues that a history binds under keys with some property, in order. -/
def queuesWhere (p : String → Prop) [DecidablePred p] (history : List (String × κ)) : List κ :=
  (history.filter fun binding => p binding.1).map (·.2)

omit [DecidableEq κ] in
theorem queuesWhere_concat (p : String → Prop) [DecidablePred p] (history : List (String × κ))
    (binding : String × κ) :
    queuesWhere p (history ++ [binding]) =
      if p binding.1 then queuesWhere p history ++ [binding.2] else queuesWhere p history := by
  by_cases hp : p binding.1 <;> simp [queuesWhere, List.filter_append, hp]

omit [DecidableEq κ] in
theorem mem_queuesWhere {p : String → Prop} [DecidablePred p] {history : List (String × κ)}
    {binding : String × κ} (hmem : binding ∈ history) (hp : p binding.1) :
    binding.2 ∈ queuesWhere p history :=
  List.mem_map_of_mem (List.mem_filter.2 ⟨hmem, decide_eq_true hp⟩)

theorem eraseDups_queuesWhere_concat (p : String → Prop) [DecidablePred p]
    (history : List (String × κ)) (binding : String × κ) :
    (queuesWhere p (history ++ [binding])).eraseDups =
      if p binding.1 then addUnique binding.2 (queuesWhere p history).eraseDups
      else (queuesWhere p history).eraseDups := by
  rw [queuesWhere_concat]
  split
  · exact eraseDups_concat _ _
  · rfl

/-- A trie holds under each pattern what was bound under it. -/
theorem Trie.bound_ofBindings (history : List (String × κ)) (path : List String) :
    (ofBindings history).bound path = (queuesWhere (segments · = path) history).eraseDups := by
  induction history using List.reverseRecOn with
  | nil => exact bound_empty path
  | append_singleton history binding ih =>
    have hstep : ofBindings (history ++ [binding]) =
        (ofBindings history).insert (segments binding.1) binding.2 := by
      rw [ofBindings, List.foldl_append]
      rfl
    rw [hstep, bound_insert (segments_ne_nil binding.1), eraseDups_queuesWhere_concat, ih]
    simp only [eq_comm]

namespace Bindings

theorem after_concat (kind : ExchangeKind) (history : List (String × κ)) (binding : String × κ) :
    after kind (history ++ [binding]) = (after kind history).bind binding.1 binding.2 := by
  rw [after, List.foldl_append]
  rfl

theorem after_direct (history : List (String × κ)) :
    ∃ routes : Routes κ, after .direct history = direct routes ∧
      ∀ key, routes.at? key = (queuesWhere (· = key) history).eraseDups := by
  induction history using List.reverseRecOn with
  | nil => exact ⟨[], rfl, fun _ => rfl⟩
  | append_singleton history binding ih =>
    obtain ⟨routes, hafter, hat⟩ := ih
    refine ⟨routes.insert binding.1 binding.2, ?_, fun key => ?_⟩
    · rw [after_concat, hafter]
      rfl
    · rw [Routes.at?_insert, eraseDups_queuesWhere_concat, hat]

theorem after_fanout (history : List (String × κ)) :
    after .fanout history = fanout (history.map (·.2)).eraseDups := by
  induction history using List.reverseRecOn with
  | nil => rfl
  | append_singleton history binding ih =>
    rw [after_concat, ih, List.map_append, List.map_singleton, eraseDups_concat]
    rfl

theorem resolve_direct (history : List (String × κ)) (key : String) :
    (after .direct history).resolve key = (queuesWhere (· = key) history).eraseDups := by
  obtain ⟨routes, hafter, hat⟩ := after_direct history
  rw [hafter]
  exact hat key

/-- Without wildcards a topic exchange is a direct one. -/
theorem resolve_topic_of_literal {history : List (String × κ)}
    (h : ∀ binding ∈ history, ∀ segment ∈ segments binding.1, isWildcard segment = false)
    (key : String) :
    (after .topic history).resolve key = (queuesWhere (· = key) history).eraseDups := by
  have hnone : ∀ path, path.any isWildcard = true → (Trie.ofBindings history).bound path = [] := by
    intro path hpath
    obtain ⟨segment, hsegment, hwild⟩ := List.any_eq_true.1 hpath
    have hempty : history.filter (fun binding => segments binding.1 = path) = [] := by
      refine List.filter_eq_nil_iff.2 fun binding hbinding hsame => ?_
      rw [← of_decide_eq_true hsame] at hsegment
      rw [h binding hbinding segment hsegment] at hwild
      cases hwild
    rw [Trie.bound_ofBindings, queuesWhere, hempty, List.map_nil, List.eraseDups_nil]
  have hkeys : ∀ other, segments other = segments key ↔ other = key :=
    fun other => ⟨segments_injective, congrArg segments⟩
  have hqueues : queuesWhere (segments · = segments key) history = queuesWhere (· = key) history := by
    simp only [queuesWhere, hkeys]
  rw [resolve_topic_eq_eraseDups, Trie.exhaust_eq_bound hnone, Trie.bound_ofBindings, hqueues,
    eraseDups_eraseDups]

theorem segments_many : segments "#" = [manySegments] := by decide +kernel

/-- With `#` alone a topic exchange is a fanout one. -/
theorem resolve_topic_of_many {history : List (String × κ)}
    (h : ∀ binding ∈ history, binding.1 = "#") (key : String) :
    (after .topic history).resolve key = (history.map (·.2)).eraseDups := by
  have hnone : ∀ path, path ≠ [manySegments] → (Trie.ofBindings history).bound path = [] := by
    intro path hpath
    have hempty : history.filter (fun binding => segments binding.1 = path) = [] := by
      refine List.filter_eq_nil_iff.2 fun binding hbinding hsame => hpath ?_
      rw [← of_decide_eq_true hsame, h binding hbinding, segments_many]
    rw [Trie.bound_ofBindings, queuesWhere, hempty, List.map_nil, List.eraseDups_nil]
  have hall : history.filter (fun binding => segments binding.1 = [manySegments]) = history := by
    refine List.filter_eq_self.2 fun binding hbinding => decide_eq_true ?_
    rw [h binding hbinding, segments_many]
  rw [resolve_topic_eq_eraseDups, Trie.exhaust_of_many hnone, Trie.bound_ofBindings, queuesWhere, hall,
    eraseDups_eraseDups]

end Bindings

theorem Branches.insert_of_mem_bound {q : κ} {branches : Branches κ} {queues : List κ}
    {pattern : List String} (h : q ∈ (Trie.mk queues branches).bound pattern) :
    branches.insert q pattern = branches := by
  induction branches generalizing queues pattern with
  | nil =>
    cases pattern with
    | nil => rfl
    | cons segment rest =>
      have hnone : (Trie.mk queues nil).bound (segment :: rest) = [] := Trie.bound_empty rest
      rw [hnone] at h
      cases h
  | cons s old above others ihAbove ihOthers =>
    cases pattern with
    | nil => rfl
    | cons segment rest =>
      by_cases hs : s = segment
      · subst hs
        have hchild : (Trie.mk queues (cons s old above others)).child s = ⟨old, above⟩ := by
          simp [Trie.child, node?]
        rw [Trie.bound, hchild] at h
        rw [insert, if_pos rfl, ihAbove h]
        split
        · next hrest =>
          subst hrest
          have hold : q ∈ old := h
          rw [addUnique_of_mem hold]
        · rfl
      · have hchild : (Trie.mk queues (cons s old above others)).child segment =
            (Trie.mk queues others).child segment := by
          simp [Trie.child, node?, hs]
        rw [Trie.bound, hchild, ← Trie.bound] at h
        rw [insert, if_neg hs, ihOthers h]

theorem Trie.insert_of_mem_bound {q : κ} {trie : Trie κ} {pattern : List String}
    (h : q ∈ trie.bound pattern) : trie.insert pattern q = trie :=
  congrArg (Trie.mk trie.queues) (Branches.insert_of_mem_bound h)

theorem Routes.insert_of_mem_at? {routes : Routes κ} {key : String} {q : κ}
    (h : q ∈ routes.at? key) : routes.insert key q = routes := by
  induction routes with
  | nil => cases h
  | cons route routes ih =>
    obtain ⟨k, queues⟩ := route
    by_cases hk : k = key
    · subst hk
      have hqueues : q ∈ queues := by simpa [at?] using h
      rw [insert, if_pos rfl, addUnique_of_mem hqueues]
    · have hrest : q ∈ at? routes key := by
        simpa [at?, List.lookup_cons, beq_false_of_ne (Ne.symm hk)] using h
      rw [insert, if_neg hk, ih hrest]

namespace Bindings

/-- Whatever the kind, a binding that is there already changes nothing. -/
theorem bind_of_mem {kind : ExchangeKind} {history : List (String × κ)} {binding : String × κ}
    (h : binding ∈ history) :
    (after kind history).bind binding.1 binding.2 = after kind history := by
  have hdirect : (after .direct history).bind binding.1 binding.2 = after .direct history := by
    obtain ⟨routes, hafter, hat⟩ := after_direct history
    have hmem : binding.2 ∈ routes.at? binding.1 := by
      rw [hat]
      exact List.mem_eraseDups.2 (mem_queuesWhere h rfl)
    rw [hafter, bind, Routes.insert_of_mem_at? hmem]
  cases kind with
  | default => exact hdirect
  | direct => exact hdirect
  | fanout =>
    have hmem : binding.2 ∈ (history.map (·.2)).eraseDups :=
      List.mem_eraseDups.2 (List.mem_map_of_mem h)
    rw [after_fanout, bind, addUnique_of_mem hmem]
  | topic =>
    have hmem : binding.2 ∈ (Trie.ofBindings history).bound (segments binding.1) := by
      rw [Trie.bound_ofBindings]
      exact List.mem_eraseDups.2 (mem_queuesWhere h rfl)
    rw [after_topic, bind, Trie.insert_of_mem_bound hmem]

theorem after_append_cons_of_mem {kind : ExchangeKind} {earlier : List (String × κ)}
    {binding : String × κ} (h : binding ∈ earlier) (later : List (String × κ)) :
    after kind (earlier ++ binding :: later) = after kind (earlier ++ later) := by
  rw [after, after, List.foldl_append, List.foldl_append, List.foldl_cons]
  exact congrArg (fun bindings => later.foldl _ bindings) (bind_of_mem h)

/-- **Where the kinds of exchanges agree.** Under exact keys a key finds the queues bound under
it, and without keys it finds all queues, each once and in the order of the first bindings.
Patterns without wildcards find the same list as exact keys, and the pattern `#` alone the
same list as no keys. In every kind, a binding that is made again changes nothing. -/
theorem resolve_of_kinds (history : List (String × κ)) (key : String) :
    (after .direct history).resolve key = (queuesWhere (· = key) history).eraseDups ∧
    ((∀ binding ∈ history, ∀ segment ∈ segments binding.1, isWildcard segment = false) →
      (after .topic history).resolve key = (after .direct history).resolve key) ∧
    (after .fanout history).resolve key = (history.map (·.2)).eraseDups ∧
    ((∀ binding ∈ history, binding.1 = "#") →
      ∀ others : List (String × κ), others.map (·.2) = history.map (·.2) →
        (after .topic history).resolve key = (after .fanout others).resolve key) ∧
    ∀ kind earlier later, ∀ binding ∈ earlier, history = earlier ++ later →
      after kind (earlier ++ binding :: later) = after kind history := by
  have hfanout : ∀ others : List (String × κ),
      (after .fanout others).resolve key = (others.map (·.2)).eraseDups := by
    intro others
    rw [after_fanout]
    rfl
  refine ⟨resolve_direct history key, fun hliteral => ?_, hfanout history, ?_, ?_⟩
  · rw [resolve_topic_of_literal hliteral, resolve_direct]
  · intro hmany others hothers
    rw [resolve_topic_of_many hmany, hfanout, hothers]
  · rintro kind earlier later binding hbinding rfl
    exact after_append_cons_of_mem hbinding later

/-- Bindings under two keys, one with an empty segment, and one of them made twice. -/
def underKeys : List (String × Nat) := [("a..b", 1), ("a", 2), ("a..b", 0), ("a..b", 1)]

/-- The same queues, all under `#`. -/
def underMany : List (String × Nat) := underKeys.map fun binding => ("#", binding.2)

/-- An empty segment is a segment like any other, and a repeated binding does nothing. -/
theorem underKeys_agree :
    (∀ binding ∈ underKeys, ∀ segment ∈ segments binding.1, isWildcard segment = false) ∧
    (∀ binding ∈ underMany, binding.1 = "#") ∧ ("a..b", 1) ∈ [("a..b", 1), ("a", 2), ("a..b", 0)] ∧
    (after .topic underKeys).resolve "a..b" = [1, 0] ∧
    (after .direct underKeys).resolve "a..b" = [1, 0] ∧
    (after .topic underMany).resolve "a.*" = [1, 2, 0] ∧
    (after .fanout underKeys).resolve "a.*" = [1, 2, 0] ∧
    after .topic underKeys = after .topic [("a..b", 1), ("a", 2), ("a..b", 0)] := by
  have hliteral : ∀ binding ∈ underKeys, ∀ segment ∈ segments binding.1,
      isWildcard segment = false := by decide +kernel
  have hmany : ∀ binding ∈ underMany, binding.1 = "#" := by decide +kernel
  have hmem : ("a..b", 1) ∈ [("a..b", 1), ("a", 2), ("a..b", 0)] := by decide
  obtain ⟨hdirect, htopic, hfanout, -, -⟩ := resolve_of_kinds underKeys "a..b"
  have hqueues : (after .direct underKeys).resolve "a..b" = [1, 0] := by
    rw [hdirect]
    decide
  have hall : (after .fanout underKeys).resolve "a.*" = [1, 2, 0] := by
    rw [(resolve_of_kinds underKeys "a.*").2.2.1]
    decide
  refine ⟨hliteral, hmany, hmem, (htopic hliteral).trans hqueues, hqueues, ?_, hall, ?_⟩
  · rw [(resolve_of_kinds underMany "a.*").2.2.2.1 hmany underKeys (by decide), hall]
  · exact (resolve_of_kinds [("a..b", 1), ("a", 2), ("a..b", 0)] "a").2.2.2.2 .topic
      [("a..b", 1), ("a", 2), ("a..b", 0)] [] ("a..b", 1) hmem rfl

end Bindings

end BrokerCluster.Routing
