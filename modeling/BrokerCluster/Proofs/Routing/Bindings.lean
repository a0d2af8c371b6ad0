import BrokerCluster.Routing.Exchange
import BrokerCluster.Proofs.Routing.Walk

/-!
# What bindings resolve to

A history of bindings fixes what every key resolves to. Under patterns, a queue is
found exactly if one of its patterns admits the key, and in every kind of exchange
one more binding adds at most its own queue, takes none away and never repeats one.
-/
namespace BrokerCluster.Routing

variable {κ : Type} [DecidableEq κ]

theorem Routes.at?_insert (routes : Routes κ) (key k : String) (q : κ) :
    (routes.insert key q).at? k = if key = k then addUnique q (routes.at? k) else routes.at? k := by
  induction routes with
  | nil =>
    by_cases h : key = k
    · simp [insert, at?, h, addUnique]
    · simp [insert, at?, List.lookup_cons, h, show (k == key) = false from beq_false_of_ne (Ne.symm h)]
  | cons route routes ih =>
    obtain ⟨s, qs⟩ := route
    by_cases hs : s = key
    · subst hs
      by_cases h : s = k
      · simp [insert, at?, h]
      · simp [insert, at?, List.lookup_cons, h, show (k == s) = false from beq_false_of_ne (Ne.symm h)]
    · by_cases h : s = k
      · subst h
        simp [insert, at?, hs, Ne.symm hs]
      · have hk : (k == s) = false := beq_false_of_ne (Ne.symm h)
        simpa [insert, at?, hs, List.lookup_cons, hk] using ih

theorem Routes.exists_mem_of_mem_insert {routes : Routes κ} {key : String} {q x : κ}
    (h : ∃ route ∈ routes.insert key q, x ∈ route.2) : (∃ route ∈ routes, x ∈ route.2) ∨ x = q := by
  induction routes with
  | nil =>
    obtain ⟨route, hr, hx⟩ := h
    obtain rfl := List.mem_singleton.1 hr
    exact .inr (List.mem_singleton.1 hx)
  | cons first routes ih =>
    obtain ⟨route, hr, hx⟩ := h
    simp only [insert] at hr
    split at hr
    · rcases List.mem_cons.1 hr with rfl | hr
      · exact (mem_addUnique.1 hx).imp_left fun hx => ⟨first, List.mem_cons_self, hx⟩
      · exact .inl ⟨route, List.mem_cons_of_mem _ hr, hx⟩
    · rcases List.mem_cons.1 hr with rfl | hr
      · exact .inl ⟨first, List.mem_cons_self, hx⟩
      · exact (ih ⟨route, hr, hx⟩).imp_left fun ⟨old, ho, hx⟩ =>
          ⟨old, List.mem_cons_of_mem _ ho, hx⟩

namespace Bindings

/-- No key resolves to a queue twice. -/
def Distinct (bindings : Bindings κ) : Prop := ∀ key, (bindings.resolve key).Nodup

theorem distinct_empty (kind : ExchangeKind) : (empty kind : Bindings κ).Distinct := by
  intro key
  cases kind with
  | topic => exact Trie.nodup_resolve _ _
  | _ => exact List.nodup_nil

theorem resolve_empty (kind : ExchangeKind) (key : String) :
    (empty kind : Bindings κ).resolve key = [] := by
  cases kind with
  | topic =>
    apply List.eq_nil_iff_forall_not_mem.2
    intro q hq
    obtain ⟨pattern, hb, -⟩ := (Trie.mem_resolve_iff _ _ _).1 hq
    exact absurd hb (by simp)
  | _ => rfl

/-- A key that already leads to the queue gets it no second time. -/
theorem distinct_bind {bindings : Bindings κ} (h : bindings.Distinct) (key : String) (q : κ) :
    (bindings.bind key q).Distinct := by
  intro k
  cases bindings with
  | direct routes =>
    have hr : (routes.at? k).Nodup := h k
    simp only [bind, resolve, Routes.at?_insert]
    split
    · exact nodup_addUnique hr
    · exact hr
  | fanout queues => exact nodup_addUnique (h k)
  | topic patterns => exact Trie.nodup_resolve _ _

/-- One more binding adds at most its own queue. -/
theorem mem_resolve_bind {bindings : Bindings κ} {key k : String} {q x : κ}
    (h : x ∈ (bindings.bind key q).resolve k) : x ∈ bindings.resolve k ∨ x = q := by
  cases bindings with
  | direct routes =>
    simp only [bind, resolve, Routes.at?_insert] at h
    split at h
    · exact mem_addUnique.1 h
    · exact .inl h
  | fanout queues => exact mem_addUnique.1 h
  | topic patterns =>
    obtain ⟨pattern, hb, hm⟩ := (Trie.mem_resolve_iff _ _ _).1 h
    rcases (Trie.mem_bound_insert (segments_ne_nil key) _ _ _ _).1 hb with hb | ⟨-, hx⟩
    · exact .inl ((Trie.mem_resolve_iff _ _ _).2 ⟨pattern, hb, hm⟩)
    · exact .inr hx

/-- A queue is bound, under whatever key. -/
def Holds (q : κ) : Bindings κ → Prop
  | direct routes => ∃ route ∈ routes, q ∈ route.2
  | fanout queues => q ∈ queues
  | topic patterns => ∃ pattern, q ∈ patterns.bound pattern

omit [DecidableEq κ] in
theorem not_holds_empty (kind : ExchangeKind) (q : κ) : ¬ (empty kind : Bindings κ).Holds q := by
  cases kind <;> simp [empty, Holds]

theorem holds_of_mem_resolve {bindings : Bindings κ} {key : String} {q : κ}
    (h : q ∈ bindings.resolve key) : bindings.Holds q := by
  cases bindings with
  | direct routes =>
    cases hl : routes.lookup key with
    | none => simp [resolve, Routes.at?, hl] at h
    | some queues =>
      obtain ⟨before, after, rfl, -⟩ := List.lookup_eq_some_iff.1 hl
      exact ⟨(key, queues), by simp, by simpa [resolve, Routes.at?, hl] using h⟩
  | fanout queues => exact h
  | topic patterns =>
    obtain ⟨pattern, hb, -⟩ := (Trie.mem_resolve_iff _ _ _).1 h
    exact ⟨pattern, hb⟩

theorem holds_bind {bindings : Bindings κ} {key : String} {q x : κ}
    (h : (bindings.bind key q).Holds x) : bindings.Holds x ∨ x = q := by
  cases bindings with
  | direct routes => exact Routes.exists_mem_of_mem_insert h
  | fanout queues => exact mem_addUnique.1 h
  | topic patterns =>
    obtain ⟨pattern, hb⟩ := h
    rcases (Trie.mem_bound_insert (segments_ne_nil key) _ _ _ _).1 hb with hb | ⟨-, hx⟩
    · exact .inl ⟨pattern, hb⟩
    · exact .inr hx

/-- A binding takes no queue away from any key. -/
theorem mem_resolve_bind_of_mem {bindings : Bindings κ} {k : String} {x : κ}
    (h : x ∈ bindings.resolve k) (key : String) (q : κ) : x ∈ (bindings.bind key q).resolve k := by
  cases bindings with
  | direct routes =>
    simp only [bind, resolve, Routes.at?_insert]
    split
    · exact mem_addUnique.2 (.inl h)
    · exact h
  | fanout queues => exact mem_addUnique.2 (.inl h)
  | topic patterns =>
    obtain ⟨pattern, hb, hm⟩ := (Trie.mem_resolve_iff _ _ _).1 h
    have hb := (Trie.mem_bound_insert (segments_ne_nil key) patterns q x pattern).2 (.inl hb)
    exact (Trie.mem_resolve_iff _ _ _).2 ⟨pattern, hb, hm⟩

theorem mem_resolve_bind_direct (routes : Routes κ) (key : String) (q : κ) :
    q ∈ ((direct routes).bind key q).resolve key := by
  simp [bind, resolve, Routes.at?_insert, mem_addUnique]

/-- The bindings that an exchange of a kind has after some were added, the oldest first. -/
def after (kind : ExchangeKind) (history : List (String × κ)) : Bindings κ :=
  history.foldl (fun bindings binding => bindings.bind binding.1 binding.2) (empty kind)

/-- After a history, a trie holds what it held before and the bindings of the history. -/
theorem foldl_bind_topic (history : List (String × κ)) (before : Trie κ) :
    ∃ patterns : Trie κ,
      history.foldl (fun bindings binding => bindings.bind binding.1 binding.2) (topic before) =
        topic patterns ∧
      ∀ path q, q ∈ patterns.bound path ↔
        q ∈ before.bound path ∨ ∃ pattern, (pattern, q) ∈ history ∧ path = segments pattern := by
  induction history generalizing before with
  | nil => exact ⟨before, rfl, by simp⟩
  | cons binding history ih =>
    obtain ⟨key, x⟩ := binding
    obtain ⟨patterns, hfold, hbound⟩ := ih (before.insert (segments key) x)
    refine ⟨patterns, hfold, fun path q => ?_⟩
    rw [hbound, Trie.mem_bound_insert (segments_ne_nil key), or_assoc]
    refine or_congr_right ⟨?_, ?_⟩
    · rintro (⟨hp, rfl⟩ | ⟨pattern, hp, he⟩)
      · exact ⟨key, List.mem_cons_self, hp⟩
      · exact ⟨pattern, List.mem_cons_of_mem _ hp, he⟩
    · rintro ⟨pattern, hp, he⟩
      rcases List.mem_cons.1 hp with hp | hp
      · obtain ⟨rfl, rfl⟩ := Prod.mk.inj hp
        exact .inl ⟨he, rfl⟩
      · exact .inr ⟨pattern, hp, he⟩

/-- **Routing under patterns is sound and complete.** A key resolves to the queues that were bound
under a pattern that admits it, to no others, and to none of them twice. -/
theorem mem_resolve_topic_iff (history : List (String × κ)) (key : String) :
    (∀ q, q ∈ (after .topic history).resolve key ↔
      ∃ pattern, (pattern, q) ∈ history ∧ Matches (segments pattern) (segments key)) ∧
    ((after .topic history).resolve key).Nodup := by
  obtain ⟨patterns, hfold, hbound⟩ := foldl_bind_topic history Trie.empty
  have hafter : after .topic history = topic patterns := hfold
  rw [hafter]
  refine ⟨fun q => ?_, Trie.nodup_resolve _ _⟩
  constructor
  · intro hq
    obtain ⟨path, hb, hm⟩ := (Trie.mem_resolve_iff _ _ _).1 hq
    rcases (hbound path q).1 hb with hb | ⟨pattern, hp, rfl⟩
    · exact absurd hb (by simp)
    · exact ⟨pattern, hp, hm⟩
  · rintro ⟨pattern, hp, hm⟩
    exact (Trie.mem_resolve_iff _ _ _).2
      ⟨segments pattern, (hbound _ _).2 (.inr ⟨pattern, hp, rfl⟩), hm⟩

end Bindings

end BrokerCluster.Routing
