import Mathlib.Data.List.Nodup
import BrokerCluster.Election.Members

/-!
# Agreement on a leader

Who the brokers of a cluster are, and which of them are up, stays as it is during an
election. Who is to lead follows from that alone.
-/
namespace BrokerCluster.Election

/-- Who the brokers are and which of them are up. -/
abbrev Roster := List (Seat × Bool)

namespace Roster

def ids (roster : Roster) : List BrokerId := roster.map fun entry => entry.1.id

def IsUp (roster : Roster) (id : BrokerId) : Prop := ∃ seat, (seat, true) ∈ roster ∧ seat.id = id

/-- The highest id of a broker that is up. -/
structure IsHighest (roster : Roster) (top : BrokerId) : Prop where
  isUp : roster.IsUp top
  le : ∀ seat, (seat, true) ∈ roster → seat.id ≤ top

/-- Every broker lists all others, in any order. -/
structure IsFullMesh (mode : Mode) (roster : Roster) : Prop where
  mode_eq : ∀ entry ∈ roster, entry.1.mode = mode
  nodup : roster.ids.Nodup
  peers : ∀ entry ∈ roster, (entry.1.peers.map (·.id)).Perm (roster.ids.erase entry.1.id)

/-- If a broker is up then one of them has the highest id. -/
theorem exists_isHighest {roster : Roster} {id : BrokerId} (hid : roster.IsUp id) :
    ∃ top, roster.IsHighest top := by
  obtain ⟨seat, hseat, -⟩ := hid
  induction roster generalizing seat with
  | nil => simp at hseat
  | cons entry rest ih =>
    by_cases hrest : ∃ other, (other, true) ∈ rest
    · obtain ⟨other, hother⟩ := hrest
      obtain ⟨top, ⟨best, hbest, hid⟩, hle⟩ := ih other hother
      by_cases hentry : entry.2 = true ∧ top < entry.1.id
      · refine ⟨entry.1.id, ⟨entry.1, ?_, rfl⟩, fun s hs => ?_⟩
        · rw [← hentry.1]
          exact List.mem_cons_self
        · rcases List.mem_cons.1 hs with rfl | hs
          · exact Int64.le_refl _
          · exact Int64.le_trans (hle s hs) (Int64.le_of_lt hentry.2)
      · refine ⟨top, ⟨best, List.mem_cons_of_mem _ hbest, hid⟩, fun s hs => ?_⟩
        rcases List.mem_cons.1 hs with rfl | hs
        · exact Int64.not_lt.1 fun hlt => hentry ⟨rfl, hlt⟩
        · exact hle s hs
    · have hall : ∀ s, (s, true) ∈ entry :: rest → (s, true) = entry := by
        intro s hs
        exact (List.mem_cons.1 hs).resolve_right fun h => hrest ⟨s, h⟩
      refine ⟨seat.id, ⟨seat, hseat, rfl⟩, fun s hs => ?_⟩
      have hsame : (s, true) = (seat, true) := (hall s hs).trans (hall seat hseat).symm
      cases hsame
      exact Int64.le_refl _

/-- An id is that of one broker only. -/
theorem eq_of_id_eq {roster : Roster} (hnodup : roster.ids.Nodup) {a b : Seat × Bool}
    (ha : a ∈ roster) (hb : b ∈ roster) (hid : a.1.id = b.1.id) : a = b :=
  List.inj_on_of_nodup_map hnodup ha hb hid

theorem IsFullMesh.mem_peers {roster : Roster} {mode : Mode} (hmesh : roster.IsFullMesh mode)
    {a b : Seat × Bool} (ha : a ∈ roster) (hb : b ∈ roster) (hne : b.1.id ≠ a.1.id) :
    b.1.id ∈ a.1.peers.map (·.id) :=
  (hmesh.peers a ha).mem_iff.2 <|
    (List.mem_erase_of_ne hne).2 <| List.mem_map.2 ⟨b, hb, rfl⟩

theorem IsFullMesh.id_notMem_peers {roster : Roster} {mode : Mode}
    (hmesh : roster.IsFullMesh mode) {a : Seat × Bool} (ha : a ∈ roster) :
    a.1.id ∉ a.1.peers.map (·.id) := by
  rw [(hmesh.peers a ha).mem_iff]
  exact hmesh.nodup.not_mem_erase

end Roster

namespace Brokers

def roster (brokers : Brokers) : Roster :=
  brokers.members.map fun member => (member.seat, member.isUp)

/-- Every broker that is up follows `top`, and `top` itself leads. -/
def AgreeOn (brokers : Brokers) (top : BrokerId) : Prop :=
  ∀ member ∈ brokers.members, member.isUp →
    member.status.leaderId = top ∧
      member.status.role = if member.seat.id = top then .leader else .follower

@[simp] theorem roster_updateStatus (brokers : Brokers) (id : BrokerId)
    (change : Status → Status) : (brokers.updateStatus id change).roster = brokers.roster := by
  simp only [roster, updateStatus, update, List.map_map]
  refine List.map_congr_left fun member _ => ?_
  simp only [Function.comp_apply]
  split <;> rfl

@[simp] theorem roster_register (brokers : Brokers) (name address : String) :
    (brokers.register name address).roster = brokers.roster := rfl

@[simp] theorem members_register (brokers : Brokers) (name address : String) :
    (brokers.register name address).members = brokers.members := rfl

theorem mem_roster {brokers : Brokers} {member : Member} (h : member ∈ brokers.members) :
    (member.seat, member.isUp) ∈ brokers.roster := List.mem_map.2 ⟨member, h, rfl⟩

theorem ids_roster (brokers : Brokers) :
    brokers.roster.ids = brokers.members.map fun member => member.seat.id := by
  simp [roster, Roster.ids]

/-- A broker of the cluster is found by its id. -/
theorem member?_of_mem_roster {brokers : Brokers} (hnodup : brokers.roster.ids.Nodup)
    {seat : Seat} {isUp : Bool} (h : (seat, isUp) ∈ brokers.roster) :
    ∃ member, brokers.member? seat.id = some member ∧ member.seat = seat ∧ member.isUp = isUp := by
  obtain ⟨found, hfound, heq⟩ := List.mem_map.1 h
  have hsome : (brokers.member? seat.id).isSome := by
    rw [member?, List.find?_isSome]
    exact ⟨found, hfound, by cases heq; simp⟩
  obtain ⟨member, hmember⟩ := Option.isSome_iff_exists.1 hsome
  have hid : member.seat.id = seat.id := by simpa using List.find?_some hmember
  have hsame := Roster.eq_of_id_eq hnodup (mem_roster (List.mem_of_find?_eq_some hmember)) h hid
  exact ⟨member, hmember, congrArg Prod.fst hsame, congrArg Prod.snd hsame⟩

theorem member?_of_mem {brokers : Brokers} (hnodup : brokers.roster.ids.Nodup) {member : Member}
    (h : member ∈ brokers.members) : brokers.member? member.seat.id = some member := by
  obtain ⟨found, hfound, hseat, -⟩ := member?_of_mem_roster hnodup (mem_roster h)
  have hmem : found ∈ brokers.members := List.mem_of_find?_eq_some hfound
  rw [ids_roster] at hnodup
  rw [hfound, List.inj_on_of_nodup_map hnodup hmem h (congrArg Seat.id hseat)]

theorem isUp_of_filter_eq_some {brokers : Brokers} {id : BrokerId} {member : Member}
    (h : (brokers.member? id).filter (·.isUp) = some member) :
    (member.seat, true) ∈ brokers.roster ∧ member.seat.id = id := by
  obtain ⟨hfound, hup⟩ := Option.filter_eq_some_iff.1 h
  have hmem := mem_roster (List.mem_of_find?_eq_some hfound)
  rw [hup] at hmem
  exact ⟨hmem, by simpa using List.find?_some hfound⟩

theorem filter_isUp_eq_none {brokers : Brokers} {id : BrokerId}
    (h : ¬ brokers.roster.IsUp id) : (brokers.member? id).filter (·.isUp) = none := by
  cases hfound : (brokers.member? id).filter (·.isUp) with
  | none => rfl
  | some member =>
    obtain ⟨hentry, hid⟩ := isUp_of_filter_eq_some hfound
    exact absurd ⟨_, hentry, hid⟩ h

theorem exists_filter_isUp {brokers : Brokers} (hnodup : brokers.roster.ids.Nodup) {id : BrokerId}
    (h : brokers.roster.IsUp id) :
    ∃ member, (brokers.member? id).filter (·.isUp) = some member ∧
      (member.seat, true) ∈ brokers.roster ∧ member.seat.id = id := by
  obtain ⟨seat, hseat, rfl⟩ := h
  obtain ⟨member, hfound, rfl, hup⟩ := member?_of_mem_roster hnodup hseat
  exact ⟨member, by rw [hfound, Option.filter_some_pos hup], hseat, rfl⟩

theorem mem_members_updateStatus {brokers : Brokers} {id : BrokerId} {change : Status → Status}
    {member : Member} :
    member ∈ (brokers.updateStatus id change).members ↔ ∃ before ∈ brokers.members,
      member = if before.seat.id = id then { before with status := change before.status }
        else before := by
  simp only [updateStatus, update, List.mem_map, eq_comm]

end Brokers

/-- What an election settles at each broker. -/
inductive Matter where
  | role
  | leader

/-- Whether a matter is settled at the broker `own` with `top` as the leader. -/
def Matter.IsSettled (top own : BrokerId) (status : Status) : Matter → Prop
  | role => status.role = if own = top then .leader else .follower
  | leader => status.leaderId = top

/-- A change to what an election settles at a broker. -/
inductive Change where
  | role (role : Role)
  | leader (leader : BrokerId)

namespace Change

def apply : Change → Status → Status
  | role r => Status.withRole r
  | leader id => Status.withLeader id

/-- Changes made one after another before an action goes on. -/
def before {α : Type} (changes : List Change) (action : Action α) : Action α :=
  changes.foldr (fun change rest => .update change.apply fun _ => rest) action

@[simp] theorem before_nil {α : Type} (action : Action α) : before [] action = action := rfl

@[simp] theorem before_cons {α : Type} (change : Change) (changes : List Change)
    (action : Action α) :
    before (change :: changes) action = .update change.apply fun _ => before changes action := rfl

def matter : Change → Matter
  | role _ => .role
  | leader _ => .leader

/-- Whether a change settles its matter at the broker `own`. -/
def IsRight (top own : BrokerId) : Change → Prop
  | role r => r = if own = top then .leader else .follower
  | leader id => id = top

/-- A right change settles its matter, whatever the status was. -/
theorem isSettled_apply {top own : BrokerId} {change : Change} (h : change.IsRight top own)
    (status : Status) : change.matter.IsSettled top own (change.apply status) := by
  cases change <;> exact h

theorem isSettled_apply_iff {top own : BrokerId} {change : Change} {matter : Matter}
    (h : matter ≠ change.matter) (status : Status) :
    matter.IsSettled top own (change.apply status) ↔ matter.IsSettled top own status := by
  cases change <;> cases matter <;> first | exact absurd rfl h | exact Iff.rfl

end Change

def Brokers.IsSettled (brokers : Brokers) (top id : BrokerId) (matter : Matter) : Prop :=
  ∀ member ∈ brokers.members, member.seat.id = id → matter.IsSettled top id member.status

/-- A change that is right, or that is made elsewhere, unsettles nothing. -/
theorem Brokers.isSettled_change {brokers : Brokers} {top id own : BrokerId} {change : Change}
    {matter : Matter} (hright : id = own → matter = change.matter → change.IsRight top own)
    (h : brokers.IsSettled top id matter ∨ (id = own ∧ matter = change.matter)) :
    (brokers.updateStatus own change.apply).IsSettled top id matter := by
  rintro member hmember rfl
  obtain ⟨before, hbefore, rfl⟩ := mem_members_updateStatus.1 hmember
  by_cases hown : before.seat.id = own
  · rw [if_pos hown] at h hright ⊢
    by_cases hmatter : matter = change.matter
    · subst hmatter
      have hid : before.seat.id = own := hown
      simp only [hid]
      exact Change.isSettled_apply (hright hown rfl) _
    · refine (Change.isSettled_apply_iff hmatter _).2 ?_
      exact (h.resolve_right fun hr => hmatter hr.2) before hbefore rfl
  · rw [if_neg hown] at h ⊢
    exact (h.resolve_right fun hr => hown hr.1) before hbefore rfl

/-- The brokers after one of them made changes one after another. -/
def Brokers.changeAll (brokers : Brokers) (id : BrokerId) (changes : List Change) : Brokers :=
  changes.foldl (fun brokers change => brokers.updateStatus id change.apply) brokers

@[simp] theorem Brokers.roster_changeAll (brokers : Brokers) (id : BrokerId)
    (changes : List Change) : (brokers.changeAll id changes).roster = brokers.roster := by
  induction changes generalizing brokers with
  | nil => rfl
  | cons first later ih => exact (ih _).trans (roster_updateStatus ..)

/-- Right changes settle their matters at the broker that makes them and unsettle none anywhere. -/
theorem Brokers.isSettled_changeAll {brokers : Brokers} {top id own : BrokerId}
    {changes : List Change} {matter : Matter}
    (hright : id = own → ∀ change ∈ changes, matter = change.matter → change.IsRight top own)
    (h : brokers.IsSettled top id matter ∨
      (id = own ∧ ∃ change ∈ changes, matter = change.matter)) :
    (brokers.changeAll own changes).IsSettled top id matter := by
  induction changes generalizing brokers with
  | nil => exact h.resolve_right (by simp)
  | cons first later ih =>
    refine ih (fun hid change hchange => hright hid change (List.mem_cons_of_mem _ hchange)) ?_
    by_cases hlater : id = own ∧ ∃ change ∈ later, matter = change.matter
    · exact .inr hlater
    · refine .inl (isSettled_change (fun hid => hright hid first List.mem_cons_self) ?_)
      refine h.imp_right fun ⟨hid, change, hchange, hmatter⟩ => ⟨hid, ?_⟩
      rcases List.mem_cons.1 hchange with rfl | hchange
      · exact hmatter
      · exact absurd ⟨hid, change, hchange, hmatter⟩ hlater

/-- Role and leader are all that an agreement asks for. -/
theorem Brokers.agreeOn_of_isSettled {brokers : Brokers} {top : BrokerId}
    (h : ∀ id, brokers.roster.IsUp id → ∀ matter, brokers.IsSettled top id matter) :
    brokers.AgreeOn top := by
  intro member hmember hup
  have hmem := mem_roster hmember
  rw [hup] at hmem
  have hsettled := h member.seat.id ⟨member.seat, hmem, rfl⟩
  exact ⟨hsettled .leader member hmember rfl, hsettled .role member hmember rfl⟩

end BrokerCluster.Election
