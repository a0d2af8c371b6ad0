import BrokerCluster.Routing.Registry
import BrokerCluster.Proofs.Routing.Bindings

/-!
# What a registry keeps

Declarations, bindings and publishes keep a registry sound: no exchange resolves a
key to one queue twice, and every queue that a key resolves to was declared. In a
sound registry a publish adds its message once to each queue that the key resolves
to, and to no other.
-/
namespace BrokerCluster.Routing

theorem mem_modify {α : Type} {xs : List α} {i : Nat} {f : α → α} {x : α}
    (h : x ∈ xs.modify i f) : x ∈ xs ∨ ∃ y, xs[i]? = some y ∧ x = f y := by
  obtain ⟨j, hj⟩ := List.mem_iff_getElem?.1 h
  rw [List.getElem?_modify] at hj
  by_cases hij : i = j
  · subst hij
    obtain ⟨y, hy, rfl⟩ := Option.map_eq_some_iff.1 hj
    exact .inr ⟨y, hy, by simp⟩
  · exact .inl (List.mem_iff_getElem?.2 ⟨j, by simpa [hij] using hj⟩)

/-- What holds of all elements, and of the one that is changed after the change, holds of all. -/
theorem forall_mem_modify {α : Type} {P : α → Prop} {xs : List α} {i : Nat} {f : α → α}
    (h : ∀ x ∈ xs, P x) (hf : ∀ y, xs[i]? = some y → P (f y)) : ∀ x ∈ xs.modify i f, P x := by
  intro x hx
  rcases mem_modify hx with hold | ⟨y, hy, rfl⟩
  · exact h x hold
  · exact hf y hy

namespace Registry

/-- The messages waiting in a queue; none if there is no such queue. -/
def pending (registry : Registry) (queue : QueueId) : List String :=
  (registry.queues[queue]?.map (·.pending)).getD []

/-- What every registry of a broker satisfies. -/
structure Sound (registry : Registry) : Prop where
  distinct : ∀ exchange ∈ registry.exchanges, exchange.bindings.Distinct
  declared : ∀ exchange ∈ registry.exchanges, ∀ key, ∀ queue ∈ exchange.route key,
    queue < registry.queues.length

theorem sound_fresh : fresh.Sound := by
  constructor <;> intro exchange he <;> obtain rfl := List.mem_singleton.1 he
  · exact Bindings.distinct_empty .default
  · intro key queue hq
    simp [Exchange.route, Exchange.fresh, Bindings.resolve_empty] at hq

@[simp] theorem exchanges_updateQueue (registry : Registry) (queue : QueueId)
    (change : Queue → Queue) : (registry.updateQueue queue change).exchanges = registry.exchanges :=
  rfl

@[simp] theorem length_queues_updateQueue (registry : Registry) (queue : QueueId)
    (change : Queue → Queue) :
    (registry.updateQueue queue change).queues.length = registry.queues.length := by
  simp [updateQueue]

theorem sound_updateQueue {registry : Registry} (h : registry.Sound) (queue : QueueId)
    (change : Queue → Queue) : (registry.updateQueue queue change).Sound where
  distinct := h.distinct
  declared := by simpa using h.declared

theorem pending_updateQueue_ne (registry : Registry) {queue other : QueueId} (h : queue ≠ other)
    (change : Queue → Queue) :
    (registry.updateQueue queue change).pending other = registry.pending other := by
  simp [pending, updateQueue, List.getElem?_modify_ne change registry.queues h]

theorem pending_put {registry : Registry} {queue : QueueId}
    (h : queue < registry.queues.length) (message : String) :
    (registry.updateQueue queue (·.put message)).pending queue =
      registry.pending queue ++ [message] := by
  simp [pending, updateQueue, List.getElem?_eq_getElem h]

/-- Adding a message to some queues, none of them twice. -/
theorem pending_foldl_put {queues : List QueueId} (hd : queues.Nodup) (registry : Registry)
    (hb : ∀ q ∈ queues, q < registry.queues.length) (message : String) (queue : QueueId) :
    (queues.foldl (fun r q => r.updateQueue q (·.put message)) registry).pending queue =
      registry.pending queue ++ if queue ∈ queues then [message] else [] := by
  induction queues generalizing registry with
  | nil => simp
  | cons q queues ih =>
    rw [List.nodup_cons] at hd
    have hrest := ih hd.2 (registry.updateQueue q (·.put message))
      (by simpa using fun x hx => hb x (by simp [hx]))
    rw [List.foldl_cons, hrest]
    by_cases he : q = queue
    · subst he
      rw [pending_put (hb q (by simp)), if_neg hd.1, if_pos (by simp), List.append_nil]
    · rw [pending_updateQueue_ne registry he]
      simp [Ne.symm he]

theorem exchanges_publish (registry : Registry) (exchange : ExchangeId) (key message : String) :
    (registry.publish exchange key message).exchanges = registry.exchanges := by
  unfold publish
  generalize registry.route exchange key = queues
  induction queues generalizing registry with
  | nil => rfl
  | cons q queues ih => simpa using ih (registry.updateQueue q (·.put message))

theorem length_queues_publish (registry : Registry) (exchange : ExchangeId)
    (key message : String) :
    (registry.publish exchange key message).queues.length = registry.queues.length := by
  unfold publish
  generalize registry.route exchange key = queues
  induction queues generalizing registry with
  | nil => rfl
  | cons q queues ih => simpa using ih (registry.updateQueue q (·.put message))

/-- Publishing adds messages to queues that are there. -/
theorem sound_publish {registry : Registry} (h : registry.Sound) (exchange : ExchangeId)
    (key message : String) : (registry.publish exchange key message).Sound where
  distinct := by simpa [exchanges_publish] using h.distinct
  declared := by simpa [exchanges_publish, length_queues_publish] using h.declared

theorem nodup_route {registry : Registry} (h : registry.Sound) (exchange : ExchangeId)
    (key : String) : (registry.route exchange key).Nodup := by
  unfold route
  split
  · next e he => exact h.distinct e (List.mem_of_getElem? he) key
  · exact List.nodup_nil

theorem route_declared {registry : Registry} (h : registry.Sound) {exchange : ExchangeId}
    {key : String} {queue : QueueId} (hq : queue ∈ registry.route exchange key) :
    queue < registry.queues.length := by
  unfold route at hq
  split at hq
  · next e he => exact h.declared e (List.mem_of_getElem? he) key queue hq
  · simp at hq

/-- **A publish adds its message once to every queue that the key resolves to**, whatever number of
bindings led there, and leaves the other queues alone. -/
theorem pending_publish {registry : Registry} (h : registry.Sound) (exchange : ExchangeId)
    (key message : String) (queue : QueueId) :
    (registry.publish exchange key message).pending queue =
      registry.pending queue ++ if queue ∈ registry.route exchange key then [message] else [] :=
  pending_foldl_put (nodup_route h exchange key) registry (fun _ hq => route_declared h hq)
    message queue

theorem take?_eq_some {registry after : Registry} {queue : QueueId} {message : String}
    (h : registry.take? queue = some (message, after)) :
    ∃ rest : Queue, registry.queues[queue]? = some (rest.requeue message) ∧
      after = registry.updateQueue queue fun _ => rest := by
  unfold take? at h
  split at h
  · next m rest hq =>
    obtain ⟨found, hf, ht⟩ := Option.bind_eq_some_iff.1 hq
    obtain ⟨rfl, rfl⟩ := Prod.mk.inj (Option.some.inj h)
    exact ⟨rest, by rw [hf, Queue.take?_eq_some_iff.1 ht], rfl⟩
  · cases h

theorem take?_eq_none_iff {registry : Registry} {queue : QueueId} :
    registry.take? queue = none ↔ registry.pending queue = [] := by
  unfold take? pending
  cases hq : registry.queues[queue]? with
  | none => simp
  | some found =>
    obtain ⟨name, pending⟩ := found
    cases pending <;> simp [Queue.take?]

/-- The message taken is the first of its queue, and the others stay. -/
theorem pending_take? {registry after : Registry} {queue : QueueId} {message : String}
    (h : registry.take? queue = some (message, after)) (other : QueueId) :
    registry.pending other = (if other = queue then [message] else []) ++ after.pending other := by
  obtain ⟨rest, hq, rfl⟩ := take?_eq_some h
  by_cases he : other = queue
  · subst he
    simp [pending, updateQueue, hq]
  · simp [he, pending_updateQueue_ne registry (Ne.symm he)]

theorem sound_take? {registry after : Registry} (hs : registry.Sound) {queue : QueueId}
    {message : String} (h : registry.take? queue = some (message, after)) : after.Sound := by
  obtain ⟨rest, -, rfl⟩ := take?_eq_some h
  exact sound_updateQueue hs queue _

/-- A message that goes back after it was taken leaves the registry as it was. -/
theorem requeue_take? {registry after : Registry} {queue : QueueId} {message : String}
    (h : registry.take? queue = some (message, after)) :
    after.updateQueue queue (·.requeue message) = registry := by
  obtain ⟨rest, hq, rfl⟩ := take?_eq_some h
  have hmodify : (registry.queues.modify queue fun _ => rest).modify queue (·.requeue message) =
      registry.queues := by
    rw [List.modify_modify_eq]
    apply List.ext_getElem?
    intro i
    by_cases hi : queue = i
    · subst hi
      simp [hq]
    · simp [List.getElem?_modify_ne _ _ hi]
  simp only [updateQueue, hmodify]

theorem sound_bind {registry : Registry} (h : registry.Sound) (exchange : ExchangeId)
    (key : String) {queue : QueueId} (hq : queue < registry.queues.length) :
    (registry.bind exchange key queue).Sound := by
  constructor
  · refine forall_mem_modify h.distinct fun old ho => ?_
    exact Bindings.distinct_bind (h.distinct old (List.mem_of_getElem? ho)) key queue
  · refine forall_mem_modify h.declared fun old ho k x hx => ?_
    rcases Bindings.mem_resolve_bind hx with hx | rfl
    · exact h.declared old (List.mem_of_getElem? ho) k x hx
    · exact hq

theorem declareExchange_queues {registry after : Registry} {kind : ExchangeKind} {name : String}
    {exchange : ExchangeId} (h : registry.declareExchange kind name = .ok (exchange, after)) :
    after.queues = registry.queues := by
  unfold declareExchange at h
  split at h
  · cases h
    rfl
  · split at h
    · cases h
      rfl
    · cases h

theorem sound_declareExchange {registry after : Registry} (hs : registry.Sound)
    {kind : ExchangeKind} {name : String} {exchange : ExchangeId}
    (h : registry.declareExchange kind name = .ok (exchange, after)) : after.Sound := by
  unfold declareExchange at h
  split at h
  · cases h
    have hfresh : ∀ e ∈ registry.exchanges ++ [Exchange.fresh name kind],
        e ∈ registry.exchanges ∨ e = .fresh name kind := by
      intro e he
      simpa using he
    constructor
    · intro e he
      rcases hfresh e he with he | rfl
      · exact hs.distinct e he
      · exact Bindings.distinct_empty kind
    · intro e he key queue hq
      rcases hfresh e he with he | rfl
      · exact hs.declared e he key queue hq
      · simp [Exchange.route, Exchange.fresh, Bindings.resolve_empty] at hq
  · split at h
    · cases h
      exact hs
    · cases h

def addQueue (registry : Registry) (name : String) : Registry :=
  { registry with queues := registry.queues ++ [Queue.fresh name] }

theorem declareQueue_eq (registry : Registry) (name : String) :
    registry.declareQueue name =
      match registry.queue? name with
      | some id => (id, registry)
      | none => (registry.queues.length,
          (registry.addQueue name).bind defaultExchange name registry.queues.length) := rfl

theorem sound_declareQueue {registry : Registry} (h : registry.Sound) (name : String) :
    (registry.declareQueue name).2.Sound := by
  rw [declareQueue_eq]
  split
  · exact h
  · have hgrown : (registry.addQueue name).Sound := by
      refine ⟨h.distinct, fun e he key queue hq => ?_⟩
      have hold := h.declared e he key queue hq
      simp only [addQueue, List.length_append, List.length_singleton]
      exact Nat.lt_succ_of_lt hold
    exact sound_bind hgrown _ _ (by simp [addQueue])

theorem length_le_declareQueue (registry : Registry) (name : String) :
    registry.queues.length ≤ (registry.declareQueue name).2.queues.length := by
  rw [declareQueue_eq]
  split
  · exact Nat.le_refl _
  · simp [addQueue, bind]

/-- The queue that a declaration selects was declared. -/
theorem declareQueue_declared (registry : Registry) (name : String) :
    (registry.declareQueue name).1 < (registry.declareQueue name).2.queues.length := by
  rw [declareQueue_eq]
  split
  · next id hid => exact (List.findIdx?_eq_some_iff_getElem.1 hid).1
  · simp [addQueue, bind]

theorem pending_declareQueue (registry : Registry) (name : String) (queue : QueueId) :
    (registry.declareQueue name).2.pending queue = registry.pending queue := by
  rw [declareQueue_eq]
  split
  · rfl
  · by_cases hq : queue < registry.queues.length
    · simp [pending, bind, addQueue, List.getElem?_append_left hq]
    · by_cases he : queue = registry.queues.length
      · subst he
        simp [pending, bind, addQueue, Queue.fresh]
      · have hlt : registry.queues.length < queue :=
          Nat.lt_of_le_of_ne (Nat.le_of_not_lt hq) (Ne.symm he)
        have hout : (registry.queues ++ [Queue.fresh name])[queue]? = none := by
          refine List.getElem?_eq_none ?_
          rw [List.length_append, List.length_singleton]
          exact Nat.succ_le_of_lt hlt
        simp [pending, bind, addQueue, hout, Nat.le_of_not_lt hq]

end Registry

end BrokerCluster.Routing
