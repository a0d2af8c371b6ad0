import BrokerCluster.Text.Words

/-!
# Registered names

The name service keeps an address for each registered name. A later registration
of a name replaces the earlier one, and removing a name that is not registered
changes nothing.
-/
namespace BrokerCluster.Naming

/-- Addresses by name; a name occurs once. -/
abbrev Table := List (String × String)

namespace Table

def address? (table : Table) (name : String) : Option String := table.lookup name

/-- The table with an address for a name, in place of any earlier one. -/
def register (table : Table) (name address : String) : Table :=
  (name, address) :: table.filter fun entry => entry.1 != name

def unregister (table : Table) (name : String) : Table :=
  table.filter fun entry => entry.1 != name

theorem address?_unregister (table : Table) (name other : String) :
    (table.unregister name).address? other = if other = name then none else table.address? other := by
  induction table with
  | nil => simp [unregister, address?]
  | cons entry rest ih =>
    obtain ⟨n, a⟩ := entry
    simp only [unregister, address?] at ih ⊢
    by_cases hn : n = name
    · subst hn
      have hf : List.filter (fun entry : String × String => entry.1 != n) ((n, a) :: rest) =
          List.filter (fun entry => entry.1 != n) rest := List.filter_cons_of_neg (by simp)
      rw [hf, ih]
      by_cases ho : other = n
      · simp [ho]
      · simp [ho, List.lookup_cons, beq_false_of_ne ho]
    · have hf : List.filter (fun entry : String × String => entry.1 != name) ((n, a) :: rest) =
          (n, a) :: List.filter (fun entry => entry.1 != name) rest :=
        List.filter_cons_of_pos (by simpa using hn)
      rw [hf]
      by_cases ho : other = n
      · subst ho
        simp [hn]
      · simp only [List.lookup_cons, beq_false_of_ne ho]
        exact ih

theorem address?_register (table : Table) (name address other : String) :
    (table.register name address).address? other =
      if other = name then some address else table.address? other := by
  by_cases ho : other = name
  · simp [ho, register, address?]
  · have h := address?_unregister table name other
    simp only [ho, if_false] at h ⊢
    rw [← h]
    simp only [register, address?, List.lookup_cons, beq_false_of_ne ho, unregister]

end Table

end BrokerCluster.Naming
