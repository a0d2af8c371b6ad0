import BrokerCluster.Monitoring.Tally

/-!
# What a tally holds

Names stand in strictly ascending order, so each has one place, and an entry is found
under its name. An entry of a tally says how many datagrams consisted of its server and
its key, and there are entries for these only.
-/
namespace BrokerCluster.Monitoring

section Ordered

variable {α : Type} {xs : Ordered α}

def IsAscending (xs : Ordered α) : Prop := xs.Pairwise fun a b => a.1 < b.1

theorem lookup_cons_self (name : String) (entry : α) (rest : Ordered α) :
    List.lookup name ((name, entry) :: rest) = some entry := by
  rw [List.lookup_cons, beq_self_eq_true]

theorem lookup_cons_of_ne {name other : String} (h : other ≠ name) (entry : α) (rest : Ordered α) :
    List.lookup other ((name, entry) :: rest) = rest.lookup other := by
  rw [List.lookup_cons, beq_false_of_ne h]

theorem mem_of_lookup {name : String} {entry : α} (h : xs.lookup name = some entry) :
    (name, entry) ∈ xs := by
  induction xs with
  | nil => cases h
  | cons first rest ih =>
    obtain ⟨n, e⟩ := first
    by_cases hn : name = n
    · subst hn
      rw [lookup_cons_self] at h
      exact Option.some.inj h ▸ List.mem_cons_self
    · rw [lookup_cons_of_ne hn] at h
      exact List.mem_cons_of_mem _ (ih h)

theorem lookup_eq_none_of_lt {name : String} (h : ∀ entry ∈ xs, name < entry.1) :
    xs.lookup name = none := by
  cases hlookup : xs.lookup name with
  | none => rfl
  | some entry => exact absurd (h _ (mem_of_lookup hlookup)) (String.lt_irrefl name)

/-- Among ascending names an entry is found under its own. -/
theorem IsAscending.lookup_eq_some_iff (h : IsAscending xs) {name : String} {entry : α} :
    xs.lookup name = some entry ↔ (name, entry) ∈ xs := by
  refine ⟨mem_of_lookup, fun hmem => ?_⟩
  induction xs with
  | nil => cases hmem
  | cons first rest ih =>
    obtain ⟨hlt, hrest⟩ := List.pairwise_cons.1 h
    obtain rfl | hmem := List.mem_cons.1 hmem
    · exact lookup_cons_self name entry rest
    · have hne : name ≠ first.1 := fun heq => String.lt_irrefl _ (heq ▸ hlt _ hmem)
      exact (lookup_cons_of_ne hne _ _).trans (ih hrest hmem)

theorem fst_of_mem_upsert {name : String} {change : Option α → α} {entry : String × α}
    (h : entry ∈ upsert name change xs) : entry.1 = name ∨ ∃ old ∈ xs, old.1 = entry.1 := by
  induction xs with
  | nil => exact .inl (List.mem_singleton.1 h ▸ rfl)
  | cons first rest ih =>
    obtain ⟨n, e⟩ := first
    unfold upsert at h
    split at h
    · obtain rfl | hmem := List.mem_cons.1 h
      · exact .inl rfl
      · exact .inr ⟨entry, hmem, rfl⟩
    · split at h
      · obtain rfl | hmem := List.mem_cons.1 h
        · exact .inr ⟨(n, e), List.mem_cons_self, rfl⟩
        · exact .inr ⟨entry, List.mem_cons_of_mem _ hmem, rfl⟩
      · obtain rfl | hmem := List.mem_cons.1 h
        · exact .inr ⟨(n, e), List.mem_cons_self, rfl⟩
        · obtain hname | ⟨old, hold, heq⟩ := ih hmem
          · exact .inl hname
          · exact .inr ⟨old, List.mem_cons_of_mem _ hold, heq⟩

theorem IsAscending.upsert (h : IsAscending xs) (name : String) (change : Option α → α) :
    IsAscending (upsert name change xs) := by
  induction xs with
  | nil => exact List.pairwise_singleton _ _
  | cons first rest ih =>
    obtain ⟨n, e⟩ := first
    obtain ⟨hlt, hrest⟩ := List.pairwise_cons.1 h
    unfold Monitoring.upsert
    split
    · next hbefore =>
      refine List.pairwise_cons.2 ⟨fun other hmem => ?_, h⟩
      obtain rfl | hmem := List.mem_cons.1 hmem
      · exact hbefore
      · exact String.lt_trans hbefore (hlt other hmem)
    · next hbefore =>
      split
      · exact List.pairwise_cons.2 ⟨hlt, hrest⟩
      · next hne =>
        refine List.pairwise_cons.2 ⟨fun other hmem => ?_, ih hrest⟩
        obtain hname | ⟨old, hold, heq⟩ := fst_of_mem_upsert hmem
        · exact hname ▸ Std.lt_of_le_of_ne (String.not_lt.1 hbefore) hne
        · exact heq ▸ hlt old hold

/-- Changing the entry of one name leaves all others. -/
theorem IsAscending.lookup_upsert (h : IsAscending xs) (name : String) (change : Option α → α)
    (other : String) :
    (Monitoring.upsert name change xs).lookup other =
      if other = name then some (change (xs.lookup name)) else xs.lookup other := by
  induction xs with
  | nil =>
    by_cases hother : other = name
    · subst hother
      rw [if_pos rfl, Monitoring.upsert, lookup_cons_self]
      rfl
    · rw [if_neg hother, Monitoring.upsert, lookup_cons_of_ne hother]
  | cons first rest ih =>
    obtain ⟨n, e⟩ := first
    obtain ⟨hlt, hrest⟩ := List.pairwise_cons.1 h
    unfold Monitoring.upsert
    split
    · next hbefore =>
      have hnone : List.lookup name ((n, e) :: rest) = none := by
        refine lookup_eq_none_of_lt fun entry hmem => ?_
        obtain rfl | hmem := List.mem_cons.1 hmem
        · exact hbefore
        · exact String.lt_trans hbefore (hlt entry hmem)
      by_cases hother : other = name
      · rw [if_pos hother, hother, lookup_cons_self, hnone]
      · rw [if_neg hother, lookup_cons_of_ne hother]
    · split
      · next heq =>
        subst heq
        by_cases hother : other = n
        · rw [if_pos hother, hother, lookup_cons_self, lookup_cons_self]
        · rw [if_neg hother, lookup_cons_of_ne hother, lookup_cons_of_ne hother]
      · next hne =>
        have hname : List.lookup name ((n, e) :: rest) = rest.lookup name :=
          lookup_cons_of_ne (Ne.symm hne) _ _
        by_cases hother : other = n
        · have hnot : other ≠ name := fun heq => hne (hother ▸ heq)
          rw [if_neg hnot, hother, lookup_cons_self, lookup_cons_self]
        · rw [lookup_cons_of_ne hother, lookup_cons_of_ne hother, ih hrest, hname]

end Ordered

namespace Tally

/-- What every tally satisfies that datagrams were counted in. -/
structure IsSound (tally : Tally) : Prop where
  servers : IsAscending tally
  keys : ∀ server keys, tally.lookup server = some keys → IsAscending keys
  /-- No server is without a key. -/
  used : ∀ server keys, tally.lookup server = some keys → keys ≠ []
  counted : ∀ server keys, tally.lookup server = some keys →
    ∀ key count, keys.lookup key = some count → 0 < count

/-- Server, key and count of every line of the report. -/
def entries (tally : Tally) : List (String × String × Nat) :=
  tally.flatMap fun (server, keys) => keys.map fun (key, count) => (server, key, count)

theorem isSound_empty : empty.IsSound where
  servers := List.Pairwise.nil
  keys := nofun
  used := nofun
  counted := nofun

section

variable {tally : Tally} (h : tally.IsSound)
include h

theorem IsSound.keys_getD (server : String) : IsAscending ((tally.lookup server).getD []) := by
  cases hkeys : tally.lookup server with
  | none => exact List.Pairwise.nil
  | some keys => exact h.keys server keys hkeys

/-- The keys of the servers after one more publish is counted. -/
theorem lookup_add (server key other : String) :
    (tally.add server key).lookup other =
      if other = server then
        some (upsert key (fun count => count.getD 0 + 1) ((tally.lookup server).getD []))
      else tally.lookup other :=
  h.servers.lookup_upsert server _ other

theorem count_add (server key server' key' : String) :
    (tally.add server key).count server' key' =
      tally.count server' key' + if [server, key] = [server', key'] then 1 else 0 := by
  rw [count, lookup_add h]
  by_cases hserver : server' = server
  · subst hserver
    rw [if_pos rfl, Option.getD_some, (h.keys_getD server').lookup_upsert]
    by_cases hkey : key' = key
    · subst hkey
      rw [if_pos rfl, if_pos rfl, Option.getD_some, count]
    · rw [if_neg hkey, if_neg (by simp [Ne.symm hkey]), count, Nat.add_zero]
  · rw [if_neg hserver, if_neg (by simp [Ne.symm hserver]), count, Nat.add_zero]

theorem isSound_add (server key : String) : (tally.add server key).IsSound where
  servers := h.servers.upsert server _
  keys other keys hother := by
    rw [lookup_add h] at hother
    split at hother
    · exact Option.some.inj hother ▸ (h.keys_getD server).upsert key _
    · exact h.keys other keys hother
  used other keys hother := by
    rw [lookup_add h] at hother
    split at hother
    · rintro rfl
      have hlookup := (h.keys_getD server).lookup_upsert key (fun count => count.getD 0 + 1) key
      rw [if_pos rfl, Option.some.inj hother] at hlookup
      cases hlookup
    · exact h.used other keys hother
  counted other keys hother found count hcount := by
    rw [lookup_add h] at hother
    split at hother
    · rw [← Option.some.inj hother, (h.keys_getD server).lookup_upsert] at hcount
      split at hcount
      · exact Option.some.inj hcount ▸ Nat.succ_pos _
      · cases hkeys : tally.lookup server with
        | none =>
          rw [hkeys] at hcount
          cases hcount
        | some old =>
          rw [hkeys] at hcount
          exact h.counted server old hkeys found count hcount
    · exact h.counted other keys hother found count hcount

theorem IsSound.exists_mem_entries {line : String × Ordered Nat} (hline : line ∈ tally) :
    ∃ key count, (line.1, key, count) ∈ tally.entries := by
  have hused := h.used line.1 line.2 (h.servers.lookup_eq_some_iff.2 hline)
  obtain ⟨⟨key, count⟩, hkey⟩ := List.exists_mem_of_ne_nil _ hused
  exact ⟨key, count, List.mem_flatMap.2 ⟨line, hline, List.mem_map.2 ⟨(key, count), hkey, rfl⟩⟩⟩

/-- The report has a line for each key that was counted at all, with its count. -/
theorem mem_entries_iff {server key : String} {count : Nat} :
    (server, key, count) ∈ tally.entries ↔ 0 < count ∧ tally.count server key = count := by
  have hplace : (server, key, count) ∈ tally.entries ↔
      ∃ keys, tally.lookup server = some keys ∧ keys.lookup key = some count := by
    simp only [entries, List.mem_flatMap, List.mem_map]
    constructor
    · rintro ⟨⟨_, keys⟩, hkeys, ⟨_, _⟩, hcount, heq⟩
      cases heq
      have hserver := h.servers.lookup_eq_some_iff.2 hkeys
      exact ⟨keys, hserver, (h.keys _ _ hserver).lookup_eq_some_iff.2 hcount⟩
    · rintro ⟨keys, hserver, hcount⟩
      exact ⟨(server, keys), mem_of_lookup hserver, (key, count), mem_of_lookup hcount, rfl⟩
  rw [hplace]
  constructor
  · rintro ⟨keys, hserver, hcount⟩
    refine ⟨h.counted server keys hserver key count hcount, ?_⟩
    rw [Tally.count, hserver, Option.getD_some, hcount, Option.getD_some]
  · rintro ⟨hpositive, hcount⟩
    rw [Tally.count] at hcount
    cases hserver : tally.lookup server with
    | none =>
      rw [hserver] at hcount
      exact absurd hcount (Nat.ne_of_lt hpositive)
    | some keys =>
      rw [hserver, Option.getD_some] at hcount
      cases hfound : keys.lookup key with
      | none =>
        rw [hfound] at hcount
        exact absurd hcount (Nat.ne_of_lt hpositive)
      | some found =>
        rw [hfound] at hcount
        exact ⟨keys, rfl, hcount ▸ hfound⟩

end

/-- A datagram is counted for its server and its key if it consists of these. -/
theorem record_spec {tally : Tally} (h : tally.IsSound) (datagram : String) :
    (tally.record datagram).1.IsSound ∧ ∀ server key, (tally.record datagram).1.count server key =
      tally.count server key + if Text.words datagram = [server, key] then 1 else 0 := by
  unfold record
  split
  · next server key hwords => exact ⟨isSound_add h server key, hwords ▸ count_add h server key⟩
  · next hwords =>
    refine ⟨h, fun server key => ?_⟩
    rw [if_neg (hwords server key), Nat.add_zero]

/-- **After any datagrams** a count has grown by those that are just the server and the key. -/
theorem recordAll_spec {tally : Tally} (h : tally.IsSound) (datagrams : List String) :
    (tally.recordAll datagrams).IsSound ∧ ∀ server key,
      (tally.recordAll datagrams).count server key =
        tally.count server key + datagrams.countP fun text => Text.words text = [server, key] := by
  induction datagrams generalizing tally with
  | nil => exact ⟨h, fun server key => rfl⟩
  | cons datagram rest ih =>
    obtain ⟨hsound, hcount⟩ := record_spec h datagram
    obtain ⟨hall, hrest⟩ := ih hsound
    refine ⟨hall, fun server key => ?_⟩
    change ((tally.record datagram).1.recordAll rest).count server key = _
    rw [hrest, hcount, List.countP_cons, Nat.add_assoc, Nat.add_comm (ite _ _ _)]
    simp only [decide_eq_true_eq]

end Tally

end BrokerCluster.Monitoring
