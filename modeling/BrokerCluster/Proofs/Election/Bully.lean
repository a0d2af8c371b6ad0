import BrokerCluster.Proofs.Election.Stages

/-!
# Agreement in `bully` mode

A late request may turn any broker back into a candidate, the leader too. But
whatever a broker lacks, something under way owes it: a challenge owes everything
to everyone, since it ends with the highest broker announcing itself, and an
announcement owes the brokers that it has yet to reach. When nothing is under way,
nothing is owed.
-/
namespace BrokerCluster.Election

namespace Purpose

/-- What is so of the brokers that `own` has yet to ask. -/
def IsSound (top own : BrokerId) (ids : List BrokerId) : Purpose → Prop
  | challenge => ∀ id ∈ ids, own < id
  | announce => own = top ∧ top ∉ ids

/-- A challenge that nobody takes up comes to the highest broker at last. -/
def Reaches (top own : BrokerId) (ids : List BrokerId) : Purpose → Prop
  | challenge => own = top ∨ top ∈ ids
  | announce => True

/-- Whether a broker is yet to be brought to follow the leader. -/
def Owes (id : BrokerId) (ids : List BrokerId) : Purpose → Prop
  | challenge => True
  | announce => id ∈ ids

end Purpose

namespace Errand

def restIds (errand : Errand) : List BrokerId := errand.rest.map (·.id)

/-- What is so of a broker that asks others, when `ids` are those not yet done with. -/
structure IsSound (roster : Roster) (top : BrokerId) (errand : Errand) (ids : List BrokerId) :
    Prop where
  isUp : (errand.seat, true) ∈ roster
  sound : errand.purpose.IsSound top errand.seat.id ids

end Errand

namespace Aim

def Owes (id : BrokerId) : Aim → Prop
  | ask purpose rest => purpose.Owes id (rest.map (·.id))
  | answer errand => errand.purpose.Owes id errand.restIds
  | nothing => False

def IsSound (roster : Roster) (top : BrokerId) (owner : Seat) : Aim → Prop
  | ask purpose rest =>
    purpose.IsSound top owner.id (rest.map (·.id)) ∧ purpose.Reaches top owner.id (rest.map (·.id))
  | answer errand => errand.IsSound roster top (owner.id :: errand.restIds)
  | nothing => True

end Aim

namespace Stage

/-- Whether what is under way will settle a matter at the broker with an id. -/
def Owes (id : BrokerId) (matter : Matter) : Stage → Prop
  | change owner changes aim =>
    aim.Owes id ∨ (id = owner.id ∧ ∃ change ∈ changes, matter = change.matter)
  | request receiver errand => errand.purpose.Owes id (receiver :: errand.restIds)
  | reply text errand => errand.isOver text = false ∧ errand.purpose.Owes id errand.restIds
  | finished => False

/-- What is so of everything under way. A change that is wrong is made on the way to a challenge. -/
def IsSound (roster : Roster) (top : BrokerId) : Stage → Prop
  | change owner changes aim =>
    (owner, true) ∈ roster ∧ aim.IsSound roster top owner ∧
      ((∀ id, aim.Owes id) ∨ ∀ change ∈ changes, change.IsRight top owner.id)
  | request receiver errand =>
    errand.IsSound roster top (receiver :: errand.restIds) ∧
      errand.purpose.Reaches top errand.seat.id (receiver :: errand.restIds)
  | reply text errand =>
    errand.IsSound roster top errand.restIds ∧
      (errand.isOver text = true ∨ errand.purpose.Reaches top errand.seat.id errand.restIds)
  | finished => True

end Stage

theorem Purpose.IsSound.tail {purpose : Purpose} {top own id : BrokerId} {ids : List BrokerId}
    (h : purpose.IsSound top own (id :: ids)) : purpose.IsSound top own ids := by
  cases purpose with
  | challenge => exact fun other hother => h other (List.mem_cons_of_mem _ hother)
  | announce => exact ⟨h.1, fun htop => h.2 (List.mem_cons_of_mem _ htop)⟩

/-- An announcement that `top` makes settles everything at any other broker. -/
theorem Errand.isRight_changes {errand : Errand} {top id : BrokerId} {ids : List BrokerId}
    (hpurpose : errand.purpose = .announce)
    (h : errand.purpose.IsSound top errand.seat.id (id :: ids)) :
    ∀ change ∈ errand.changes, change.IsRight top id := by
  obtain ⟨purpose, seat, rest⟩ := errand
  subst hpurpose
  obtain ⟨hid, htop⟩ := h
  have hne : id ≠ top := fun heq => htop (heq ▸ List.mem_cons_self)
  intro change hchange
  simp only [changes, List.mem_cons, List.not_mem_nil, or_false] at hchange
  rcases hchange with rfl | rfl
  · exact (if_neg hne).symm
  · exact hid

theorem Errand.isOver_answer {errand : Errand} (hpurpose : errand.purpose = .challenge)
    (receiver : Seat) : errand.isOver (errand.answer receiver).reply = true := by
  simp [isOver, answer, hpurpose]

section Step

variable {roster : Roster} {top : BrokerId} (hmesh : roster.IsFullMesh .bully)
include hmesh

section Sound

variable (htop : roster.IsHighest top)
include htop

/-- A broker that challenges comes to the highest one, unless it is that one. -/
theorem isSound_challenge {owner : Seat} (howner : (owner, true) ∈ roster) :
    (Aim.ask .challenge owner.higher).IsSound roster top owner := by
  refine ⟨fun id hid => ?_, ?_⟩
  · obtain ⟨peer, hpeer, rfl⟩ := List.mem_map.1 hid
    simpa using (List.mem_filter.1 hpeer).2
  · by_cases hid : owner.id = top
    · exact .inl hid
    · obtain ⟨best, hbest, rfl⟩ := htop.isUp
      have hlt : owner.id < best.id :=
        Int64.lt_of_le_of_ne (htop.le owner howner) hid
      obtain ⟨peer, hpeer, heq⟩ := List.mem_map.1 (hmesh.mem_peers howner hbest (Ne.symm hid))
      refine .inr (List.mem_map.2 ⟨peer, List.mem_filter.2 ⟨hpeer, ?_⟩, heq⟩)
      simpa [heq] using hlt

/-- An election may be started by any broker that is up, whether or not it can win. -/
theorem Stage.isSound_start {owner : Seat} (howner : (owner, true) ∈ roster) :
    (Stage.start owner).IsSound roster top :=
  ⟨howner, isSound_challenge hmesh htop howner, .inl fun _ => trivial⟩

/-- What a broker does after its changes is sound if what it aims at is. -/
theorem Stage.isSound_change {brokers : Brokers} {owner : Seat} {aim : Aim}
    (howner : (owner, true) ∈ roster) (haim : aim.IsSound roster top owner) :
    ∀ after ∈ ((change owner [] aim).step brokers).2, after.IsSound roster top := by
  intro after hafter
  cases aim with
  | nothing =>
    rw [List.mem_singleton.1 hafter]
    trivial
  | answer errand =>
    rcases List.mem_cons.1 hafter with rfl | hafter
    · refine ⟨⟨haim.isUp, haim.sound.tail⟩, ?_⟩
      cases hpurpose : errand.purpose with
      | challenge => exact .inl (Errand.isOver_answer hpurpose owner)
      | announce => exact .inr trivial
    · obtain ⟨_, _, rfl⟩ := List.mem_map.1 hafter
      exact ⟨howner, isSound_challenge hmesh htop howner, .inr (by simp)⟩
  | ask purpose rest =>
    obtain ⟨hsound, hreach⟩ := haim
    cases rest with
    | cons peer rest =>
      rw [List.mem_singleton.1 hafter]
      exact ⟨⟨howner, hsound⟩, hreach⟩
    | nil =>
      cases purpose with
      | challenge =>
        have hid : owner.id = top := hreach.resolve_right (by simp)
        rw [List.mem_singleton.1 hafter]
        refine ⟨howner, ⟨⟨hid, ?_⟩, trivial⟩, .inr ?_⟩
        · exact hid ▸ hmesh.id_notMem_peers howner
        · simpa [Change.IsRight] using hid
      | announce =>
        cases hreg : owner.registration <;> simp only [step, hreg, List.mem_singleton] at hafter <;>
          subst hafter
        · trivial
        · exact ⟨howner, trivial, .inr (by simp)⟩

/-- What follows from sound stages is sound. -/
theorem Stage.isSound_step {brokers : Brokers} (hroster : brokers.roster = roster) {stage : Stage}
    (h : stage.IsSound roster top) : ∀ after ∈ (stage.step brokers).2, after.IsSound roster top := by
  subst hroster
  intro after hafter
  cases stage with
  | finished => cases hafter
  | reply text errand =>
    obtain ⟨⟨hup, hsound⟩, hreach⟩ := h
    rw [List.mem_singleton.1 hafter]
    cases hover : errand.isOver text with
    | true => exact ⟨hup, trivial, .inr (by simp)⟩
    | false => exact ⟨hup, ⟨hsound, hreach.resolve_left (by simp [hover])⟩, .inr (by simp)⟩
  | request receiver errand =>
    obtain ⟨⟨hup, hsound⟩, hreach⟩ := h
    cases hfound : (brokers.member? receiver).filter (·.isUp) with
    | some member =>
      obtain ⟨hmember, rfl⟩ := Brokers.isUp_of_filter_eq_some hfound
      simp only [step, hfound, List.mem_singleton] at hafter
      subst hafter
      refine ⟨hmember, ⟨hup, hsound⟩, ?_⟩
      cases hpurpose : errand.purpose with
      | challenge => exact .inl fun id => by simp [Aim.Owes, hpurpose, Purpose.Owes]
      | announce => exact .inr (Errand.isRight_changes hpurpose hsound)
    | none =>
      simp only [step, hfound, List.mem_singleton] at hafter
      subst hafter
      refine ⟨⟨hup, hsound.tail⟩, .inr ?_⟩
      cases hpurpose : errand.purpose with
      | announce => trivial
      | challenge =>
        rw [hpurpose] at hreach
        have hne : top ≠ receiver := by
          rintro rfl
          obtain ⟨member, hmember, -⟩ := Brokers.exists_filter_isUp hmesh.nodup htop.isUp
          rw [hfound] at hmember
          cases hmember
        exact hreach.imp_right fun hmem => (List.mem_cons.1 hmem).resolve_left hne
  | change owner changes aim =>
    obtain ⟨howner, haim, hright⟩ := h
    cases changes with
    | nil => exact isSound_change hmesh htop howner haim after hafter
    | cons first later =>
      rw [List.mem_singleton.1 hafter]
      exact ⟨howner, haim, hright.imp_right fun h c hc => h c (List.mem_cons_of_mem _ hc)⟩

end Sound

/-- A broker that is about to go on to its aim keeps what it owes. -/
theorem Stage.covered_change {brokers : Brokers} {owner : Seat} {aim : Aim}
    (howner : (owner, true) ∈ roster) (haim : aim.IsSound roster top owner) {id : BrokerId}
    (hid : roster.IsUp id) (matter : Matter)
    (h : brokers.IsSettled top id matter ∨ aim.Owes id) :
    ((change owner [] aim).step brokers).1.IsSettled top id matter ∨
      ∃ after ∈ ((change owner [] aim).step brokers).2, after.Owes id matter := by
  cases aim with
  | nothing => exact h.imp_right False.elim
  | answer errand =>
    refine h.imp_right fun howes => ?_
    cases hpurpose : errand.purpose with
    | announce =>
      exact ⟨_, List.mem_cons_self, by simp [Errand.isOver, hpurpose], by simpa [Aim.Owes] using howes⟩
    | challenge =>
      have hlt : errand.seat.id < owner.id := by
        have hsound := haim.sound
        rw [hpurpose] at hsound
        exact hsound owner.id List.mem_cons_self
      have hfollow : (errand.answer owner).followUp = some .challengeHigher := by
        simp [Errand.answer, hpurpose, hlt]
      refine ⟨change owner [] (.ask .challenge owner.higher), ?_, .inl trivial⟩
      exact List.mem_cons_of_mem _ (List.mem_map.2 ⟨_, Option.mem_toList.2 hfollow, rfl⟩)
  | ask purpose rest =>
    cases rest with
    | cons peer rest => exact h.imp_right fun howes => ⟨_, List.mem_singleton_self _, howes⟩
    | nil =>
      cases purpose with
      | announce =>
        have hsettled := h.resolve_right (by simp [Aim.Owes, Purpose.Owes])
        refine .inl ?_
        cases hreg : owner.registration <;> simpa [step, hreg, Brokers.IsSettled] using hsettled
      | challenge =>
        have htop' : owner.id = top := haim.2.resolve_right (by simp)
        by_cases hown : id = owner.id
        · cases matter with
          | role =>
            refine .inl (Brokers.isSettled_change (fun _ _ => ?_) (.inr ⟨hown, rfl⟩))
            exact (if_pos htop').symm
          | leader => exact .inr ⟨_, List.mem_singleton_self _, .inr ⟨hown, by simp [Change.matter]⟩⟩
        · obtain ⟨seat, hseat, rfl⟩ := hid
          exact .inr ⟨_, List.mem_singleton_self _, .inl (hmesh.mem_peers howner hseat hown)⟩

/-- What was settled or owed before a step is so after it. -/
theorem Stage.covered_step {brokers : Brokers} (hroster : brokers.roster = roster) {stage : Stage}
    (hsound : stage.IsSound roster top) {id : BrokerId} (hid : roster.IsUp id) (matter : Matter)
    (h : brokers.IsSettled top id matter ∨ stage.Owes id matter) :
    (stage.step brokers).1.IsSettled top id matter ∨
      ∃ after ∈ (stage.step brokers).2, after.Owes id matter := by
  cases stage with
  | finished => exact h.imp_right False.elim
  | reply text errand =>
    refine h.imp_right fun ⟨hover, howes⟩ => ⟨_, List.mem_singleton_self _, .inl ?_⟩
    rw [hover]
    exact howes
  | request receiver errand =>
    cases hfound : (brokers.member? receiver).filter (·.isUp) with
    | some member =>
      simp only [step, hfound]
      refine h.imp_right fun howes => ⟨_, List.mem_singleton_self _, ?_⟩
      obtain ⟨-, rfl⟩ := Brokers.isUp_of_filter_eq_some hfound
      cases hpurpose : errand.purpose with
      | challenge => exact .inl (by simp [Aim.Owes, hpurpose, Purpose.Owes])
      | announce =>
        simp only [Owes, hpurpose, Purpose.Owes, List.mem_cons] at howes
        rcases howes with rfl | howes
        · refine .inr ⟨rfl, ?_⟩
          cases matter <;> simp [Errand.changes, hpurpose, Change.matter]
        · refine .inl ?_
          rw [Aim.Owes, hpurpose]
          exact howes
    | none =>
      simp only [step, hfound]
      refine h.imp_right fun howes => ⟨_, List.mem_singleton_self _, ?_, ?_⟩
      · cases hpurpose : errand.purpose <;> simp [Errand.isOver, hpurpose]
      · cases hpurpose : errand.purpose with
        | challenge => trivial
        | announce =>
          have hne : id ≠ receiver := by
            rintro rfl
            obtain ⟨member, hmember, -⟩ := Brokers.exists_filter_isUp
              (hroster ▸ hmesh.nodup) (hroster.symm ▸ hid)
            rw [hfound] at hmember
            cases hmember
          simp only [Owes, hpurpose, Purpose.Owes, List.mem_cons] at howes
          exact howes.resolve_left hne
  | change owner changes aim =>
    obtain ⟨howner, haim, hright⟩ := hsound
    cases changes with
    | nil => exact covered_change hmesh howner haim hid matter (by simpa [Owes] using h)
    | cons first later =>
      by_cases howes : aim.Owes id
      · exact .inr ⟨_, List.mem_singleton_self _, .inl howes⟩
      · have hright := hright.resolve_left fun hall => howes (hall id)
        by_cases hlater : id = owner.id ∧ ∃ change ∈ later, matter = change.matter
        · exact .inr ⟨_, List.mem_singleton_self _, .inr hlater⟩
        · refine .inl (Brokers.isSettled_change (fun _ _ => hright first List.mem_cons_self) ?_)
          refine h.imp_right fun hr => ?_
          obtain ⟨hown, change, hchange, hmatter⟩ := hr.resolve_left howes
          rcases List.mem_cons.1 hchange with rfl | hchange
          · exact ⟨hown, hmatter⟩
          · exact absurd ⟨hown, change, hchange, hmatter⟩ hlater

end Step

end BrokerCluster.Election
