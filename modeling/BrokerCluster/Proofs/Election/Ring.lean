import Mathlib.Data.List.Chain
import BrokerCluster.Proofs.Election.Agreement

/-!
# Brokers in a ring

A ring has no first broker, so it may be read from any of them on. From the broker
that is to lead, the brokers that are up form a chain that ends with the same
broker: each is the first of its predecessor's peers that can be reached.
-/
namespace BrokerCluster.Election.Roster

def upIds (roster : Roster) : List BrokerId := ids (roster.filter (·.2))

theorem mem_upIds {roster : Roster} {id : BrokerId} : id ∈ roster.upIds ↔ roster.IsUp id := by
  simp only [upIds, ids, List.mem_map, List.mem_filter, IsUp, Prod.exists]
  constructor
  · rintro ⟨seat, isUp, ⟨hmem, rfl⟩, rfl⟩
    exact ⟨seat, hmem, rfl⟩
  · rintro ⟨seat, hmem, rfl⟩
    exact ⟨seat, true, ⟨hmem, rfl⟩, rfl⟩

theorem nodup_upIds {roster : Roster} (hnodup : roster.ids.Nodup) : roster.upIds.Nodup :=
  hnodup.sublist (List.filter_sublist.map _)

/-- The rest of a ring, from a broker on. -/
def roundFrom (id : BrokerId) (ring : List BrokerId) : List BrokerId :=
  (ring.dropWhile (· != id)).tail ++ ring.takeWhile (· != id)

theorem roundFrom_append {id : BrokerId} {before after : List BrokerId}
    (hnodup : (before ++ id :: after).Nodup) :
    roundFrom id (before ++ id :: after) = after ++ before := by
  have hnew : id ∉ before := fun hmem =>
    (List.nodup_append.1 hnodup).2.2 _ hmem _ List.mem_cons_self rfl
  have hbefore : ∀ other ∈ before, (other != id) = true := fun other hother =>
    bne_iff_ne.2 fun heq => hnew (heq ▸ hother)
  rw [roundFrom, List.dropWhile_append_of_pos hbefore, List.takeWhile_append_of_pos hbefore]
  simp

/-- Every broker lists all others, in the order in which they follow it in the ring. -/
structure IsRing (ring : List BrokerId) (roster : Roster) : Prop where
  mode_eq : ∀ entry ∈ roster, entry.1.mode = .ring
  nodup : roster.ids.Nodup
  perm : ring.Perm roster.ids
  peers : ∀ entry ∈ roster, entry.1.peers.map (·.id) = roundFrom entry.1.id ring

theorem IsRing.peers_eq {roster : Roster} {ring before after : List BrokerId}
    (h : roster.IsRing ring) {entry : Seat × Bool} (hentry : entry ∈ roster)
    (hsplit : ring = before ++ entry.1.id :: after) :
    entry.1.peers.map (·.id) = after ++ before := by
  have hnodup : (before ++ entry.1.id :: after).Nodup := hsplit ▸ h.perm.nodup_iff.2 h.nodup
  rw [h.peers entry hentry, hsplit, roundFrom_append hnodup]

/-- The first of a broker's peers that can be reached is `next`. -/
def Precedes (roster : Roster) (id next : BrokerId) : Prop :=
  roster.IsUp next ∧ ∀ seat, (seat, true) ∈ roster → seat.id = id →
    ∃ down peer rest, seat.peers = down ++ peer :: rest ∧
      (∀ other ∈ down, ¬ roster.IsUp other.id) ∧ peer.id = next

theorem isChain_of_append {roster : Roster} {early path : List BrokerId} {id last : BrokerId}
    (hchain : List.IsChain roster.Precedes ((early ++ id :: path) ++ [last])) :
    List.IsChain roster.Precedes (id :: path ++ [last]) := by
  rw [List.append_assoc] at hchain
  exact hchain.right_of_append

/-- Whoever is on the way around has a next broker. -/
theorem exists_precedes {roster : Roster} {ids : List BrokerId} {id last : BrokerId}
    (hchain : List.IsChain roster.Precedes (ids ++ [last])) (hid : id ∈ ids) :
    ∃ next, roster.Precedes id next := by
  obtain ⟨early, path, rfl⟩ := List.append_of_mem hid
  cases path with
  | nil => exact ⟨last, List.isChain_pair.1 (isChain_of_append hchain)⟩
  | cons next path => exact ⟨next, (List.isChain_cons_cons.1 (isChain_of_append hchain)).1⟩

/-- A ring may be read from any broker on. -/
theorem IsRing.rotate {roster : Roster} {first last : List BrokerId}
    (h : roster.IsRing (first ++ last)) : roster.IsRing (last ++ first) := by
  have hperm : (last ++ first).Perm roster.ids := List.perm_append_comm.trans h.perm
  refine ⟨h.mode_eq, h.nodup, hperm, fun entry hentry => ?_⟩
  obtain ⟨before, after, hsplit⟩ :=
    List.append_of_mem (hperm.mem_iff.2 (List.mem_map.2 ⟨entry, hentry, rfl⟩))
  have hnodup : (before ++ entry.1.id :: after).Nodup := hsplit ▸ hperm.nodup_iff.2 h.nodup
  rw [hsplit, roundFrom_append hnodup]
  rcases List.append_eq_append_iff.1 hsplit with ⟨middle, rfl, rfl⟩ | ⟨middle, rfl, hmiddle⟩
  · have hpeers : entry.1.peers.map (·.id) = (after ++ last) ++ middle :=
      h.peers_eq hentry (by simp)
    rw [hpeers, List.append_assoc]
  · cases middle with
    | nil =>
      obtain rfl : entry.1.id :: after = first := hmiddle
      have hpeers : entry.1.peers.map (·.id) = (after ++ before) ++ [] :=
        h.peers_eq hentry (by simp)
      rw [hpeers, List.append_nil]
    | cons id middle =>
      obtain ⟨rfl, rfl⟩ := List.cons.inj hmiddle
      have hpeers : entry.1.peers.map (·.id) = middle ++ (first ++ before) :=
        h.peers_eq hentry (by simp)
      rw [hpeers, ← List.append_assoc]
      rfl

/-- The next broker is the first one after it in the ring that is up. -/
theorem IsRing.precedes {roster : Roster} {before after rest : List BrokerId} {id next : BrokerId}
    (h : roster.IsRing (before ++ id :: after))
    (hnext : (after ++ before).filter (· ∈ roster.upIds) = next :: rest) :
    roster.Precedes id next := by
  obtain ⟨down, others, hsplit, hdown, hup, -⟩ := List.filter_eq_cons_iff.1 hnext
  refine ⟨mem_upIds.1 (by simpa using hup), ?_⟩
  rintro seat hseat rfl
  have hpeers := (h.peers_eq hseat rfl).trans hsplit
  obtain ⟨downPeers, later, hlist, rfl, hlater⟩ := List.map_eq_append_iff.1 hpeers
  obtain ⟨peer, others, rfl, rfl, -⟩ := List.map_eq_cons_iff.1 hlater
  refine ⟨downPeers, peer, others, hlist, fun other hother => ?_, rfl⟩
  have hnot := hdown other.id (List.mem_map_of_mem hother)
  rw [← mem_upIds]
  simpa using hnot

/-- The brokers that are up after one of them, as far as `top`, from which the ring is read. -/
theorem IsRing.isChain {roster : Roster} {top id : BrokerId} {before down after : List BrokerId}
    (h : roster.IsRing (before ++ id :: (down ++ after))) (htop : roster.IsUp top)
    (hhead : ∃ rest, before ++ [id] = top :: rest) (hdown : ∀ other ∈ down, ¬ roster.IsUp other)
    (hsome : before = [] → after.filter (· ∈ roster.upIds) ≠ []) :
    List.IsChain roster.Precedes (id :: after.filter (· ∈ roster.upIds) ++ [top]) := by
  induction after generalizing before down id with
  | nil =>
    have hdowns : down.filter (· ∈ roster.upIds) = [] :=
      List.filter_eq_nil_iff.2 fun other hother => by simpa [mem_upIds] using hdown other hother
    obtain ⟨rest, hhead⟩ := hhead
    cases before with
    | nil => exact absurd rfl (hsome rfl)
    | cons first before =>
      obtain ⟨rfl, -⟩ := List.cons.inj hhead
      have hfirst : ((down ++ []) ++ first :: before).filter (· ∈ roster.upIds) =
          first :: before.filter (· ∈ roster.upIds) := by
        simp [hdowns, mem_upIds, htop]
      exact List.isChain_pair.2 (h.precedes hfirst)
  | cons next after ih =>
    have hdowns : down.filter (· ∈ roster.upIds) = [] :=
      List.filter_eq_nil_iff.2 fun other hother => by simpa [mem_upIds] using hdown other hother
    by_cases hup : next ∈ roster.upIds
    · have hnext : ((down ++ next :: after) ++ before).filter (· ∈ roster.upIds) =
          next :: (after ++ before).filter (· ∈ roster.upIds) := by
        simp [hdowns, hup]
      obtain ⟨rest, hhead⟩ := hhead
      have hstart : (before ++ id :: down) ++ [next] = top :: (rest ++ down ++ [next]) := by
        simpa using congrArg (· ++ (down ++ [next])) hhead
      have hring : roster.IsRing ((before ++ id :: down) ++ next :: ([] ++ after)) := by simpa using h
      have hrest := ih hring ⟨_, hstart⟩ (by simp) (by simp)
      rw [List.filter_cons_of_pos (by simpa using hup)]
      exact List.isChain_cons_cons.2 ⟨h.precedes hnext, hrest⟩
    · have hskip : (next :: after).filter (· ∈ roster.upIds) = after.filter (· ∈ roster.upIds) :=
        List.filter_cons_of_neg (by simpa using hup)
      rw [hskip] at hsome ⊢
      have hring : roster.IsRing (before ++ id :: ((down ++ [next]) ++ after)) := by simpa using h
      refine ih hring hhead (fun other hother => ?_) hsome
      rcases List.mem_append.1 hother with hother | hother
      · exact hdown other hother
      · rw [List.mem_singleton.1 hother, ← mem_upIds]
        exact hup

theorem filter_mem_upIds {roster : Roster} (hnodup : roster.ids.Nodup) :
    roster.ids.filter (· ∈ roster.upIds) = roster.upIds := by
  refine List.filter_map.trans (congrArg ids (List.filter_congr fun entry hentry => ?_))
  have hup : entry.1.id ∈ roster.upIds ↔ entry.2 = true := by
    rw [mem_upIds]
    constructor
    · rintro ⟨seat, hseat, hid⟩
      rw [← eq_of_id_eq hnodup hseat hentry hid]
    · intro hup
      exact ⟨entry.1, by rwa [← hup], rfl⟩
  exact Bool.eq_iff_iff.2 (decide_eq_true_iff.trans hup)

/-- From any broker that is up, the ring of those that are up leads back to it. -/
theorem IsRing.exists_circle {roster : Roster} {ring : List BrokerId} (h : roster.IsRing ring)
    {top : BrokerId} (htop : roster.IsUp top) (htwo : 2 ≤ roster.upIds.length) :
    ∃ others, others ≠ [] ∧ (top :: others).Perm roster.upIds ∧
      List.IsChain roster.Precedes (top :: others ++ [top]) := by
  have hmem : top ∈ ring := by
    obtain ⟨seat, hseat, rfl⟩ := htop
    exact h.perm.mem_iff.2 (List.mem_map.2 ⟨_, hseat, rfl⟩)
  obtain ⟨before, after, rfl⟩ := List.append_of_mem hmem
  have hring : roster.IsRing ([] ++ top :: ([] ++ (after ++ before))) := by simpa using h.rotate
  have hperm : (top :: (after ++ before).filter (· ∈ roster.upIds)).Perm roster.upIds := by
    have hfilter := hring.perm.filter (· ∈ roster.upIds)
    rw [filter_mem_upIds h.nodup] at hfilter
    simpa [mem_upIds, htop] using hfilter
  have hsome : (after ++ before).filter (· ∈ roster.upIds) ≠ [] := by
    intro hnone
    have hlength := hperm.length_eq
    rw [hnone, List.length_singleton] at hlength
    omega
  exact ⟨_, hsome, hperm, hring.isChain htop ⟨[], rfl⟩ (by simp) fun _ => hsome⟩

end BrokerCluster.Election.Roster
