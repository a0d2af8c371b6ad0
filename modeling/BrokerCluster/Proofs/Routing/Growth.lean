import Mathlib.Data.List.Nodup
import BrokerCluster.Proofs.Routing.Registry

/-!
# A registry only grows

`Change` says all that can become of a registry in one step: messages come and go, an
exchange or a queue is declared under a name that was free, or a declared queue is
bound. So names stay unique, kinds stay as they were declared, and no key loses a
queue. The default exchange finds each queue under the name of the queue.
-/
namespace BrokerCluster.Routing.Registry

def queueNames (registry : Registry) : List String := registry.queues.map (·.name)

def kinds (registry : Registry) : List (String × ExchangeKind) :=
  registry.exchanges.map fun exchange => (exchange.name, exchange.kind)

variable {registry after : Registry}

@[simp] theorem length_queueNames (registry : Registry) :
    registry.queueNames.length = registry.queues.length := List.length_map _

@[simp] theorem length_kinds (registry : Registry) :
    registry.kinds.length = registry.exchanges.length := List.length_map _

theorem findIdx?_beq_eq_some_iff {names : List String} (h : names.Nodup) {name : String} {i : Nat} :
    names.findIdx? (· == name) = some i ↔ names[i]? = some name := by
  rw [List.findIdx?_eq_some_iff_getElem]
  constructor
  · rintro ⟨hi, he, -⟩
    rw [List.getElem?_eq_getElem hi, eq_of_beq he]
  · intro he
    obtain ⟨hi, hname⟩ := List.getElem?_eq_some_iff.1 he
    refine ⟨hi, beq_of_eq hname, fun j hji hbeq => ?_⟩
    have hj : j < names.length := Nat.lt_trans hji hi
    have hsame : names[j]? = names[i]? := by
      rw [he, List.getElem?_eq_getElem hj, eq_of_beq hbeq]
    exact absurd ((List.getElem?_inj hj h).1 hsame) (Nat.ne_of_lt hji)

theorem findIdx?_beq_eq_none_iff {names : List String} {name : String} :
    names.findIdx? (· == name) = none ↔ name ∉ names := by
  rw [List.findIdx?_eq_none_iff]
  constructor
  · intro h hm
    simpa using h name hm
  · intro h other hm
    exact beq_false_of_ne fun he => h (he ▸ hm)

theorem queue?_eq (registry : Registry) (name : String) :
    registry.queue? name = registry.queueNames.findIdx? (· == name) := by
  rw [queueNames, List.findIdx?_map]
  rfl

theorem exchange?_eq (registry : Registry) (name : String) :
    registry.exchange? name = (registry.kinds.map Prod.fst).findIdx? (· == name) := by
  rw [kinds, List.map_map, List.findIdx?_map]
  rfl

/-- The kind of the exchange with a name is found by the name. -/
theorem kind_exchange? (registry : Registry) (name : String) :
    ((registry.exchange? name).bind fun id => registry.exchanges[id]?.map (·.kind)) =
      registry.kinds.lookup name := by
  obtain ⟨exchanges, queues⟩ := registry
  simp only [exchange?, kinds]
  induction exchanges with
  | nil => rfl
  | cons exchange exchanges ih =>
    rw [List.findIdx?_cons, List.map_cons, List.lookup_cons]
    by_cases hn : exchange.name = name
    · simp [hn]
    · rw [if_neg (by simpa using hn), beq_false_of_ne (Ne.symm hn), ← ih, Option.bind_map]
      rfl

/-- What a registry can become in one step. -/
inductive Change (registry : Registry) : Registry → Prop where
  /-- Only the messages in the queues differ. -/
  | messages {after : Registry} (hexchanges : after.exchanges = registry.exchanges)
      (hnames : after.queueNames = registry.queueNames) : Change registry after
  | exchange {name : String} (hnew : registry.exchange? name = none) (kind : ExchangeKind) :
      Change registry { registry with exchanges := registry.exchanges ++ [.fresh name kind] }
  | queue {name : String} (hnew : registry.queue? name = none) :
      Change registry
        ((registry.addQueue name).bind defaultExchange name registry.queues.length)
  | bind {queue : QueueId} (hqueue : queue < registry.queues.length) (exchange : ExchangeId)
      (key : String) : Change registry (registry.bind exchange key queue)

theorem Change.refl (registry : Registry) : Change registry registry := .messages rfl rfl

theorem map_modify {α β : Type} (f : α → β) {change : α → α} (h : ∀ x, f (change x) = f x)
    (xs : List α) (i : Nat) : (xs.modify i change).map f = xs.map f := by
  apply List.ext_getElem?
  intro j
  by_cases hij : i = j <;> simp [hij, Function.comp_def, h]

theorem queueNames_updateQueue {change : Queue → Queue}
    (h : ∀ queue, (change queue).name = queue.name) (registry : Registry) (queue : QueueId) :
    (registry.updateQueue queue change).queueNames = registry.queueNames := map_modify _ h _ _

@[simp] theorem kinds_bind (registry : Registry) (exchange : ExchangeId) (key : String)
    (queue : QueueId) : (registry.bind exchange key queue).kinds = registry.kinds := by
  refine map_modify _ ?_ _ _
  intro e
  rfl

@[simp] theorem queueNames_bind (registry : Registry) (exchange : ExchangeId) (key : String)
    (queue : QueueId) : (registry.bind exchange key queue).queueNames = registry.queueNames := rfl

@[simp] theorem queueNames_addQueue (registry : Registry) (name : String) :
    (registry.addQueue name).queueNames = registry.queueNames ++ [name] := List.map_append

theorem kinds_publish (registry : Registry) (exchange : ExchangeId) (key message : String) :
    (registry.publish exchange key message).kinds = registry.kinds := by
  rw [kinds, exchanges_publish, kinds]

/-- A publish only adds to queues. -/
theorem change_publish (registry : Registry) (exchange : ExchangeId) (key message : String) :
    Change registry (registry.publish exchange key message) := by
  refine .messages (exchanges_publish registry exchange key message) ?_
  unfold publish
  generalize registry.route exchange key = queues
  induction queues generalizing registry with
  | nil => rfl
  | cons queue queues ih =>
    exact (ih _).trans (queueNames_updateQueue (fun q => q.name_put message) registry queue)

theorem change_take? {queue : QueueId} {message : String}
    (h : registry.take? queue = some (message, after)) : Change registry after := by
  obtain ⟨rest, hq, rfl⟩ := take?_eq_some h
  refine .messages rfl ?_
  apply List.ext_getElem?
  intro i
  by_cases hi : queue = i
  · subst hi
    simp [queueNames, updateQueue, hq, Queue.requeue]
  · simp [queueNames, updateQueue, List.getElem?_modify_ne _ _ hi]

/-- A new queue comes with its binding to the default exchange. -/
theorem change_declareQueue (registry : Registry) (name : String) :
    Change registry (registry.declareQueue name).2 := by
  rw [declareQueue_eq]
  split
  · exact .refl registry
  · next hnew => exact .queue hnew

theorem kinds_declareQueue (registry : Registry) (name : String) :
    (registry.declareQueue name).2.kinds = registry.kinds := by
  rw [declareQueue_eq]
  split
  · rfl
  · exact kinds_bind _ _ _ _

/-- A declaration of an exchange that is not refused. The exchange has the declared kind, which it
had before if there was one. -/
theorem declareExchange_eq_ok {kind : ExchangeKind} {name : String} {exchange : ExchangeId}
    (h : registry.declareExchange kind name = .ok (exchange, after)) :
    Change registry after ∧ exchange < after.exchanges.length ∧
      ∀ other, after.kinds.lookup other = (registry.kinds ++ [(name, kind)]).lookup other := by
  have hkind := kind_exchange? registry name
  unfold declareExchange at h
  split at h
  · next hnew =>
    cases h
    refine ⟨.exchange hnew kind, by simp, fun other => ?_⟩
    simp [kinds, Exchange.fresh]
  · next id hid =>
    split at h
    · next hsame =>
      cases h
      rw [hid, Option.bind_some, hsame] at hkind
      refine ⟨.refl registry, ?_, fun other => ?_⟩
      · exact (List.findIdx?_eq_some_iff_getElem.1 hid).1
      · rw [List.lookup_append, List.lookup_cons]
        by_cases he : other = name
        · rw [he, ← hkind, Option.some_or]
        · rw [beq_false_of_ne he]
          exact (Option.or_none).symm
    · cases h

/-- An exchange can be declared unless one of the name has another kind. -/
theorem declareExchange_ok_iff {kind : ExchangeKind} {name : String} :
    (∃ exchange after, registry.declareExchange kind name = .ok (exchange, after)) ↔
      ∀ first, registry.kinds.lookup name = some first → first = kind := by
  have hkind := kind_exchange? registry name
  unfold declareExchange
  cases hid : registry.exchange? name with
  | none =>
    rw [hid, Option.bind_none] at hkind
    simp [← hkind]
  | some id =>
    rw [hid, Option.bind_some] at hkind
    have hsome : ∃ first, registry.kinds.lookup name = some first := by
      rw [← hkind, List.getElem?_eq_getElem (List.findIdx?_eq_some_iff_getElem.1 hid).1]
      exact ⟨_, rfl⟩
    obtain ⟨first, hfirst⟩ := hsome
    simp only [hkind, hfirst]
    by_cases he : first = kind <;> simp [he]

/-- Names and kinds stay, and no key loses a queue. -/
structure Extends (before after : Registry) : Prop where
  kinds : before.kinds <+: after.kinds
  queues : before.queueNames <+: after.queueNames
  route : ∀ exchange key queue, queue ∈ before.route exchange key → queue ∈ after.route exchange key

theorem Extends.length_exchanges (h : registry.Extends after) :
    registry.exchanges.length ≤ after.exchanges.length := by
  simpa using h.kinds.length_le

theorem Extends.length_queues (h : registry.Extends after) :
    registry.queues.length ≤ after.queues.length := by
  simpa using h.queues.length_le

theorem route_eq (registry : Registry) {exchange : ExchangeId} {found : Exchange QueueId}
    (h : registry.exchanges[exchange]? = some found) (key : String) :
    registry.route exchange key = found.route key := by
  rw [route, h]

theorem exists_of_mem_route {exchange : ExchangeId} {key : String} {queue : QueueId}
    (h : queue ∈ registry.route exchange key) :
    ∃ found, registry.exchanges[exchange]? = some found ∧ queue ∈ found.route key := by
  unfold route at h
  split at h
  · next found hfound => exact ⟨found, hfound, h⟩
  · cases h

/-- A binding takes no queue away, from any exchange under any key. -/
theorem mem_route_bind (registry : Registry) {exchange other : ExchangeId} {key k : String}
    {queue q : QueueId} (h : q ∈ registry.route other k) :
    q ∈ (registry.bind exchange key queue).route other k := by
  obtain ⟨found, hfound, hq⟩ := exists_of_mem_route h
  by_cases he : exchange = other
  · subst he
    have hbound : (registry.bind exchange key queue).exchanges[exchange]? =
        some (found.bind key queue) := by
      simp [bind, hfound]
    rw [route_eq _ hbound]
    exact Bindings.mem_resolve_bind_of_mem hq key queue
  · have hsame : (registry.bind exchange key queue).exchanges[other]? = some found := by
      rw [bind, List.getElem?_modify_ne _ _ he, hfound]
    rwa [route_eq _ hsame]

/-- However a registry changes, what was declared and bound stays. -/
theorem Change.extends (h : Change registry after) : registry.Extends after := by
  cases h with
  | messages hexchanges hnames =>
    have hkinds : after.kinds = registry.kinds := by
      simp only [kinds, hexchanges]
    refine ⟨hkinds ▸ List.prefix_rfl, hnames ▸ List.prefix_rfl, ?_⟩
    · intro exchange key queue hq
      rwa [route, hexchanges]
  | @exchange name hnew kind =>
    refine ⟨?_, List.prefix_rfl, ?_⟩
    · rw [kinds, kinds, List.map_append]
      exact List.prefix_append _ _
    · intro exchange key queue hq
      obtain ⟨found, hfound, hq⟩ := exists_of_mem_route hq
      have hsame : (registry.exchanges ++ [.fresh name kind])[exchange]? = some found := by
        rw [List.getElem?_append_left (List.getElem?_eq_some_iff.1 hfound).1, hfound]
      rwa [route_eq _ hsame]
  | queue hnew =>
    refine ⟨kinds_bind _ _ _ _ ▸ List.prefix_rfl, ?_, ?_⟩
    · rw [queueNames_bind, queueNames_addQueue]
      exact List.prefix_append _ _
    · intro exchange key queue hq
      exact mem_route_bind (registry.addQueue _) hq
  | bind hqueue exchange key =>
    exact ⟨kinds_bind _ _ _ _ ▸ List.prefix_rfl, List.prefix_rfl,
      fun other k q hq => mem_route_bind registry hq⟩

/-- The exchange that its own name leads to. -/
def IsExchange (registry : Registry) (exchange : ExchangeId) : Prop :=
  ∃ found, registry.exchanges[exchange]? = some found ∧ registry.exchange? found.name = some exchange

/-- The queue that its own name leads to. -/
def IsQueue (registry : Registry) (queue : QueueId) : Prop :=
  ∃ found, registry.queues[queue]? = some found ∧ registry.queue? found.name = some queue

/-- Names are unique, and what is bound was declared. -/
structure Indexed (registry : Registry) : Prop where
  exchanges : (registry.kinds.map Prod.fst).Nodup
  queues : registry.queueNames.Nodup
  /-- The default exchange looks keys up as they are. -/
  default : ∃ routes, registry.exchanges[defaultExchange]? =
    some ⟨defaultName, .default, .direct routes⟩
  bound : ∀ exchange ∈ registry.exchanges, ∀ queue, exchange.bindings.Holds queue →
    queue < registry.queues.length

/-- The default exchange finds each queue under its name. -/
def Homes (registry : Registry) : Prop :=
  ∀ (queue : QueueId) (name : String), registry.queueNames[queue]? = some name →
    queue ∈ registry.route defaultExchange name

theorem indexed_fresh : fresh.Indexed where
  exchanges := by decide
  queues := List.nodup_nil
  default := ⟨[], rfl⟩
  bound := by
    intro exchange he queue hq
    obtain rfl := List.mem_singleton.1 he
    exact absurd hq (Bindings.not_holds_empty .default queue)

theorem homes_fresh : fresh.Homes := by
  intro queue name hq
  cases hq

theorem indexed_addQueue (h : registry.Indexed) {name : String} (hnew : registry.queue? name = none) :
    (registry.addQueue name).Indexed where
  exchanges := h.exchanges
  queues := by
    rw [queue?_eq, findIdx?_beq_eq_none_iff] at hnew
    rw [queueNames_addQueue, ← List.concat_eq_append]
    exact h.queues.concat hnew
  default := h.default
  bound := by
    intro exchange he queue hq
    have hold := h.bound exchange he queue hq
    simp only [addQueue, List.length_append, List.length_singleton]
    exact Nat.lt_succ_of_lt hold

theorem indexed_bind (h : registry.Indexed) {queue : QueueId} (hqueue : queue < registry.queues.length)
    (exchange : ExchangeId) (key : String) : (registry.bind exchange key queue).Indexed where
  exchanges := by
    rw [kinds_bind]
    exact h.exchanges
  queues := h.queues
  default := by
    obtain ⟨routes, hroutes⟩ := h.default
    by_cases he : exchange = defaultExchange
    · refine ⟨routes.insert key queue, ?_⟩
      simp [bind, he, hroutes, Exchange.bind, Bindings.bind]
    · exact ⟨routes, by rw [bind, List.getElem?_modify_ne _ _ he, hroutes]⟩
  bound := by
    refine forall_mem_modify h.bound fun old ho q hq => ?_
    rcases Bindings.holds_bind hq with hq | rfl
    · exact h.bound old (List.mem_of_getElem? ho) q hq
    · exact hqueue

theorem Indexed.change (h : registry.Indexed) (hchange : Change registry after) : after.Indexed := by
  cases hchange with
  | messages hexchanges hnames =>
    have hlength : after.queues.length = registry.queues.length := by
      rw [← length_queueNames, hnames, length_queueNames]
    refine ⟨?_, ?_, ?_, ?_⟩
    · rw [kinds, hexchanges]
      exact h.exchanges
    · rw [hnames]
      exact h.queues
    · rw [hexchanges]
      exact h.default
    · rw [hexchanges, hlength]
      exact h.bound
  | @exchange name hnew kind =>
    refine ⟨?_, h.queues, ?_, ?_⟩
    · rw [exchange?_eq, findIdx?_beq_eq_none_iff] at hnew
      rw [kinds, List.map_append, List.map_append, ← kinds]
      exact List.concat_eq_append ▸ h.exchanges.concat hnew
    · obtain ⟨routes, hroutes⟩ := h.default
      refine ⟨routes, ?_⟩
      rw [List.getElem?_append_left (List.getElem?_eq_some_iff.1 hroutes).1, hroutes]
    · intro found hf queue hq
      rcases List.mem_append.1 hf with hf | hf
      · exact h.bound found hf queue hq
      · obtain rfl := List.mem_singleton.1 hf
        exact absurd hq (Bindings.not_holds_empty kind queue)
  | queue hnew => exact indexed_bind (indexed_addQueue h hnew) (by simp [addQueue]) _ _
  | bind hqueue exchange key => exact indexed_bind h hqueue exchange key

theorem Homes.change (hh : registry.Homes) (h : registry.Indexed) (hchange : Change registry after) :
    after.Homes := by
  intro queue name hq
  -- A queue that was there is found as before.
  have hold : registry.queueNames[queue]? = some name → queue ∈ after.route defaultExchange name :=
    fun hq => hchange.extends.route _ _ _ (hh queue name hq)
  cases hchange with
  | messages hexchanges hnames => exact hold (hnames ▸ hq)
  | exchange => exact hold hq
  | @queue fresh hnew =>
    rw [queueNames_bind, queueNames_addQueue, List.getElem?_append] at hq
    split at hq
    · exact hold hq
    · next hlt =>
      rw [List.getElem?_singleton, Option.ite_none_right_eq_some, Option.some.injEq] at hq
      obtain ⟨hzero, rfl⟩ := hq
      obtain ⟨routes, hroutes⟩ := h.default
      -- The queue is new, and just bound to the default exchange under its name.
      have hbound : ((registry.addQueue fresh).bind defaultExchange fresh
          registry.queues.length).exchanges[defaultExchange]? = some ⟨defaultName, .default,
            (Bindings.direct routes).bind fresh registry.queues.length⟩ := by
        simp [bind, addQueue, hroutes, Exchange.bind]
      have hqueue : queue = registry.queues.length := by
        rw [length_queueNames] at hzero hlt
        exact Nat.le_antisymm (Nat.sub_eq_zero_iff_le.1 hzero) (Nat.le_of_not_lt hlt)
      rw [hqueue, route_eq _ hbound]
      exact Bindings.mem_resolve_bind_direct routes fresh _
  | bind => exact hold hq

theorem Indexed.isQueue (h : registry.Indexed) {queue : QueueId}
    (hq : queue < registry.queues.length) : registry.IsQueue queue := by
  refine ⟨registry.queues[queue], List.getElem?_eq_getElem hq, ?_⟩
  rw [queue?_eq, findIdx?_beq_eq_some_iff h.queues]
  simp [queueNames, hq]

theorem Indexed.isExchange (h : registry.Indexed) {exchange : ExchangeId}
    (he : exchange < registry.exchanges.length) : registry.IsExchange exchange := by
  refine ⟨registry.exchanges[exchange], List.getElem?_eq_getElem he, ?_⟩
  rw [exchange?_eq, findIdx?_beq_eq_some_iff h.exchanges]
  simp [kinds, he]

/-- What a key resolves to is bound, and so it was declared. -/
theorem Indexed.lt_of_mem_route (h : registry.Indexed) {exchange : ExchangeId} {key : String}
    {queue : QueueId} (hq : queue ∈ registry.route exchange key) : queue < registry.queues.length := by
  obtain ⟨found, hfound, hroute⟩ := exists_of_mem_route hq
  exact h.bound found (List.mem_of_getElem? hfound) queue (Bindings.holds_of_mem_resolve hroute)

/-- No key resolves to two queues of one name. -/
theorem Indexed.nodup_names (h : registry.Indexed) (hs : registry.Sound) (exchange : ExchangeId)
    (key : String) :
    ((registry.route exchange key).map fun queue => registry.queueNames[queue]?).Nodup := by
  refine List.Nodup.map_on ?_ (nodup_route hs exchange key)
  intro queue hq other _ hsame
  have hlt : queue < registry.queueNames.length := by
    rw [length_queueNames]
    exact h.lt_of_mem_route hq
  exact (List.getElem?_inj hlt h.queues).1 hsame

theorem count_home (h : registry.Indexed) (hh : registry.Homes) (hs : registry.Sound) {name : String}
    {queue : QueueId} (hq : registry.queue? name = some queue) :
    (registry.route defaultExchange name).count queue = 1 := by
  rw [queue?_eq, findIdx?_beq_eq_some_iff h.queues] at hq
  exact List.count_eq_one_of_mem (nodup_route hs _ _) (hh queue name hq)

end BrokerCluster.Routing.Registry
