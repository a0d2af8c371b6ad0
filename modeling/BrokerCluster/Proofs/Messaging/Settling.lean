import BrokerCluster.Proofs.Messaging.Steps

/-!
# Schedules, and settling

A schedule says which events and which steps of subscriptions happen, in any order.
The runs that let every subscription go on until it waits are schedules of a special
kind: after each event nothing is left to do.
-/
namespace BrokerCluster.Messaging.Service

open Routing

/-- What can happen next: an event, or a step of a client's subscription. -/
inductive Move where
  | event (event : Event)
  | advance (client : ClientId)
  deriving DecidableEq, Repr

def Move.event? : Move → Option Event
  | .event happened => some happened
  | .advance _ => none

/-- A subscription that waits is passed over. -/
def move (service : Service) : Move → Service × List Output
  | .event event => service.react event
  | .advance id => (service.advance id).getD (service, [])

def play (service : Service) : List Move → Service × List Output
  | [] => (service, [])
  | next :: rest =>
    let (service, outputs) := service.move next
    let (service, later) := service.play rest
    (service, outputs ++ later)

theorem play_append (service : Service) (first second : List Move) :
    service.play (first ++ second) =
      (((service.play first).1.play second).1,
        (service.play first).2 ++ ((service.play first).1.play second).2) := by
  induction first generalizing service with
  | nil => rfl
  | cons next first ih => simp [play, ih, List.append_assoc]

/-- A bound on the steps that a client's subscription can take on its own. -/
def remaining (service : Service) (id : ClientId) : Nat :=
  match service.clients[id]?.bind (·.session.subscription) with
  | none => 0
  | some subscription => service.pendingCount + 1 + if subscription.announced then 0 else 1

theorem remaining_le (service : Service) (id : ClientId) :
    service.remaining id ≤ service.pendingCount + 2 := by
  unfold remaining
  split
  · exact Nat.zero_le _
  · split <;> omega

theorem remaining_eq {service : Service} {id : ClientId} {client : Client}
    {subscription : Subscription} (hclient : service.clients[id]? = some client)
    (hsub : client.session.subscription = some subscription) :
    service.remaining id = service.pendingCount + 1 + if subscription.announced then 0 else 1 := by
  simp [remaining, hclient, hsub]

theorem foldr_modify_requeue {queues : List Queue} {i : Nat} {rest : Queue} {message : String}
    (h : queues[i]? = some (rest.requeue message)) :
    queues.foldr (fun queue total => queue.pending.length + total) 0 =
      (queues.modify i fun _ => rest).foldr (fun queue total => queue.pending.length + total) 0 +
        1 := by
  induction queues generalizing i with
  | nil => simp at h
  | cons queue queues ih =>
    cases i with
    | zero =>
      obtain rfl : queue = rest.requeue message := by simpa using h
      simp only [List.modify_zero_cons, List.foldr_cons, Queue.pending_requeue, List.length_cons]
      omega
    | succ i =>
      have := ih (by simpa using h)
      simp only [List.modify_succ_cons, List.foldr_cons]
      omega

/-- Each step of a subscription leaves fewer steps, so no subscription runs for ever. -/
theorem remaining_advanced {service after : Service} {id : ClientId} {outputs : List Output}
    (h : Advanced service id after outputs) : after.remaining id < service.remaining id := by
  cases h with
  | announce hclient hsub hannounced =>
    rw [remaining_eq hclient hsub, hannounced]
    simp [remaining, updateSession, updateClient, hclient, pendingCount]
  | leave hclient hsub =>
    rw [remaining_eq hclient hsub]
    have hzero : (service.stop id).remaining id = 0 := by
      simp [remaining, stop, updateSession, updateClient, hclient, Session.stop]
    omega
  | @deliver client subscription message registry hclient hsub hannounced htake =>
    obtain ⟨rest, hqueue, rfl⟩ := Registry.take?_eq_some htake
    let registry := service.registry.updateQueue subscription.queue fun _ => rest
    have hafter : ({ service with registry } : Service).remaining id = _ :=
      remaining_eq hclient hsub
    have hcount := foldr_modify_requeue hqueue
    rw [remaining_eq hclient hsub, hafter]
    simp only [pendingCount, registry, Registry.updateQueue]
    omega

theorem advance_none_of_advanced {service after : Service} {id other : ClientId}
    {outputs : List Output} (hid : service.advance id = none)
    (h : Advanced service other after outputs) : after.advance id = none := by
  by_cases he : other = id
  · subst he
    rw [advance_eq_none_iff] at hid ⊢
    cases h with
    | announce hclient hsub hannounced =>
      have := (hid _ _ hclient hsub).1
      simp [hannounced] at this
    | leave hclient hsub =>
      intro client subscription hc hs
      simp [stop, updateSession, updateClient, hclient, Session.stop] at hc
      subst hc
      simp at hs
    | deliver hclient hsub hannounced htake =>
      have hnone := Registry.take?_eq_none_iff.2 (hid _ _ hclient hsub).2.2
      rw [hnone] at htake
      cases htake
  · rw [advance_eq_none_iff] at hid ⊢
    cases h with
    | announce => simpa [updateSession, updateClient, List.getElem?_modify_ne _ _ he] using hid
    | leave => simpa [stop, updateSession, updateClient, List.getElem?_modify_ne _ _ he] using hid
    | @deliver client subscription message registry _ _ _ htake =>
      intro c s hc hs
      obtain ⟨ha, hstop, hempty⟩ := hid c s hc hs
      refine ⟨ha, hstop, ?_⟩
      rw [Registry.pending_take? htake] at hempty
      exact (List.append_eq_nil_iff.1 hempty).2

theorem advance_none_deliver {service : Service} {id : ClientId} (hid : service.advance id = none)
    (other : ClientId) (steps : Nat) : (service.deliver other steps).1.advance id = none := by
  induction steps generalizing service with
  | zero => exact hid
  | succ steps ih =>
    unfold deliver
    split
    · exact hid
    · next after outputs h => exact ih (advance_none_of_advanced hid (advanced_of_advance h))

/-- Enough steps let a subscription go on until it waits. -/
theorem advance_deliver {service : Service} {id : ClientId} {steps : Nat}
    (h : service.remaining id ≤ steps) : (service.deliver id steps).1.advance id = none := by
  induction steps generalizing service with
  | zero =>
    cases ha : service.advance id with
    | none => exact ha
    | some result =>
      have := remaining_advanced (advanced_of_advance ha)
      omega
  | succ steps ih =>
    unfold deliver
    split
    · next ha => exact ha
    · next after outputs ha =>
      have := remaining_advanced (advanced_of_advance ha)
      exact ih (by omega)

/-- A subscription that was let run waits, and goes on waiting while others run. -/
theorem advance_settleAll {ids : List ClientId} {service : Service} {id : ClientId}
    (h : id ∈ ids ∨ service.advance id = none) :
    (settleAll ids service).1.advance id = none := by
  induction ids generalizing service with
  | nil => exact h.resolve_left List.not_mem_nil
  | cons first ids ih =>
    have hcons : (settleAll (first :: ids) service).1 =
        (settleAll ids (service.deliver first (service.pendingCount + 2)).1).1 := rfl
    rw [hcons]
    refine ih ?_
    rcases h with h | h
    · rcases List.mem_cons.1 h with rfl | h
      · exact .inr (advance_deliver (remaining_le service _))
      · exact .inl h
    · exact .inr (advance_none_deliver h first _)

/-- After settling, every subscription waits. -/
theorem advance_settle (service : Service) (id : ClientId) : service.settle.1.advance id = none := by
  refine advance_settleAll ?_
  by_cases hid : id < service.clients.length
  · exact .inl (List.mem_range.2 hid)
  · refine .inr (advance_eq_none_iff.2 fun client _ hc => ?_)
    rw [List.getElem?_eq_none (Nat.le_of_not_lt hid)] at hc
    cases hc

theorem exists_play_deliver (service : Service) (id : ClientId) (steps : Nat) :
    ∃ moves, moves.filterMap Move.event? = [] ∧ service.play moves = service.deliver id steps := by
  induction steps generalizing service with
  | zero => exact ⟨[], rfl, rfl⟩
  | succ steps ih =>
    unfold deliver
    split
    · exact ⟨[], rfl, rfl⟩
    · next after outputs h =>
      obtain ⟨moves, hevents, hplay⟩ := ih after
      refine ⟨.advance id :: moves, by simpa [Move.event?] using hevents, ?_⟩
      simp [play, move, h, hplay]

theorem exists_play_settleAll (ids : List ClientId) (service : Service) :
    ∃ moves, moves.filterMap Move.event? = [] ∧ service.play moves = settleAll ids service := by
  induction ids generalizing service with
  | nil => exact ⟨[], rfl, rfl⟩
  | cons id ids ih =>
    obtain ⟨first, hfirst, hdeliver⟩ :=
      exists_play_deliver service id (service.pendingCount + 2)
    obtain ⟨later, hlater, hsettle⟩ := ih (service.play first).1
    refine ⟨first ++ later, by simp [hfirst, hlater], ?_⟩
    rw [play_append, hsettle, hdeliver]
    rfl

/-- Every run is a schedule with the same events. -/
theorem exists_play_run (service : Service) (events : List Event) :
    ∃ moves, moves.filterMap Move.event? = events ∧ service.play moves = service.run events := by
  induction events generalizing service with
  | nil => exact ⟨[], rfl, rfl⟩
  | cons event events ih =>
    obtain ⟨settling, hsettling, hsettle⟩ :=
      exists_play_settleAll (List.range (service.react event).1.clients.length)
        (service.react event).1
    obtain ⟨later, hlater, hrun⟩ := ih (service.handle event).1
    refine ⟨.event event :: settling ++ later, by simp [Move.event?, hsettling, hlater], ?_⟩
    have hhandle : service.play (.event event :: settling) = service.handle event := by
      simp only [play, move, hsettle]
      rfl
    rw [play_append, hhandle, hrun]
    rfl

/-- Between the events of a run nothing is left to do. -/
theorem advance_run {service : Service} (h : ∀ id, service.advance id = none)
    (events : List Event) (id : ClientId) : (service.run events).1.advance id = none := by
  induction events generalizing service with
  | nil => exact h id
  | cons event events ih => exact ih fun other => advance_settle (service.react event).1 other

end BrokerCluster.Messaging.Service
