import BrokerCluster.Messaging.Dispatch
import Mathlib.Data.List.Infix
import Mathlib.Data.List.Perm.Basic

/-!
# Where the messages of a queue are

However the steps of subscribers and publishes follow one another, the messages that
were delivered, those that subscribers hold and those that are pending are together
the messages that were published. As long as one subscriber at most is attached they
also stand in the order in which they were published.
-/
namespace BrokerCluster.Messaging

open Routing

namespace Dispatch

def Step.published? : Step → Option String
  | publish message => some message
  | _ => none

def published (steps : List Step) : List String := steps.filterMap Step.published?

/-- No client has two subscribers. -/
def IsSound (dispatch : Dispatch) : Prop := (dispatch.subscribers.map Prod.fst).Nodup

theorem isSound_fresh (name : String) : (fresh name).IsSound := List.nodup_nil

theorem map_fst_setStage (dispatch : Dispatch) (client : ClientId) (stage : Stage) :
    (dispatch.setStage client stage).subscribers.map Prod.fst =
      dispatch.subscribers.map Prod.fst := by
  simp only [setStage, List.map_map]
  refine List.map_congr_left fun entry _ => ?_
  simp only [Function.comp_apply]
  split
  · next h => exact h.symm
  · rfl

theorem IsSound.setStage {dispatch : Dispatch} (h : dispatch.IsSound) (client : ClientId)
    (stage : Stage) : (dispatch.setStage client stage).IsSound := by
  rw [IsSound, map_fst_setStage]
  exact h

theorem IsSound.leave {dispatch : Dispatch} (h : dispatch.IsSound) (client : ClientId) :
    (dispatch.leave client).IsSound :=
  List.Nodup.sublist (List.filter_sublist.map Prod.fst) h

theorem IsSound.step {dispatch : Dispatch} (h : dispatch.IsSound) (next : Step) :
    (dispatch.step next).1.IsSound := by
  cases next with
  | publish message => exact h
  | join client =>
    simp only [Dispatch.step]
    split
    · next hnone =>
      have hnew : client ∉ dispatch.subscribers.map Prod.fst := by
        intro hmem
        obtain ⟨entry, hentry, rfl⟩ := List.mem_map.1 hmem
        have hne := List.lookup_eq_none_iff.1 hnone entry hentry
        simp at hne
      simp only [IsSound, List.map_append, List.map_cons, List.map_nil]
      exact (List.perm_append_comm.nodup_iff).1 (List.nodup_cons.2 ⟨hnew, h⟩)
    · exact h
  | take client =>
    simp only [Dispatch.step]
    split
    · exact @IsSound.setStage { dispatch with queue := _ } h client _
    · exact h
  | complete client =>
    simp only [Dispatch.step]
    split
    · exact h.setStage client _
    · exact h.setStage client _
    · exact h
  | fail client =>
    simp only [Dispatch.step]
    split
    · exact h.leave client
    · exact @IsSound.leave { dispatch with queue := _ } h client
    · exact h
  | cancel client =>
    simp only [Dispatch.step]
    split
    · exact h.leave client
    · exact h

/-- A subscriber stands in one place of the list, which is all that its steps change. -/
theorem exists_split {dispatch : Dispatch} (h : dispatch.IsSound) {client : ClientId} {stage : Stage}
    (hstage : dispatch.stage? client = some stage) :
    ∃ before after, dispatch.subscribers = before ++ (client, stage) :: after ∧
      (∀ other, (dispatch.setStage client other).subscribers =
        before ++ (client, other) :: after) ∧
      (dispatch.leave client).subscribers = before ++ after := by
  obtain ⟨before, after, hsplit, -⟩ := List.lookup_eq_some_iff.1 hstage
  have hnodup := h
  rw [IsSound, hsplit, List.map_append, List.map_cons] at hnodup
  obtain ⟨-, hlater, hdisjoint⟩ := List.nodup_append.1 hnodup
  have hbefore : ∀ entry ∈ before, entry.1 ≠ client := fun entry hentry =>
    hdisjoint entry.1 (List.mem_map_of_mem hentry) client List.mem_cons_self
  have hafter : ∀ entry ∈ after, entry.1 ≠ client := fun entry hentry he =>
    (List.nodup_cons.1 hlater).1 (List.mem_map.2 ⟨entry, hentry, he⟩)
  refine ⟨before, after, hsplit, fun other => ?_, ?_⟩
  · have hsame : ∀ entries : List (ClientId × Stage), (∀ entry ∈ entries, entry.1 ≠ client) →
        entries.map (fun entry => if entry.1 = client then (client, other) else entry) = entries := by
      intro entries hne
      exact (List.map_congr_left fun entry hentry => if_neg (hne entry hentry)).trans
        (List.map_id' entries)
    simp only [setStage, hsplit, List.map_append, List.map_cons, if_true, hsame before hbefore,
      hsame after hafter]
  · have hkept : ∀ entries : List (ClientId × Stage), (∀ entry ∈ entries, entry.1 ≠ client) →
        entries.filter (fun entry => entry.1 != client) = entries :=
      fun entries hne => List.filter_eq_self.2 fun entry hentry => bne_iff_ne.2 (hne entry hentry)
    simp [leave, hsplit, hkept before hbefore, hkept after hafter]

theorem filterMap_message?_cons (client : ClientId) (stage : Stage)
    (entries : List (ClientId × Stage)) :
    ((client, stage) :: entries).filterMap (fun entry => entry.2.message?) =
      stage.message?.toList ++ entries.filterMap fun entry => entry.2.message? := by
  cases stage <;> rfl

/-- A subscriber that goes on to another stage gives away what it held and holds what it took. -/
theorem perm_held_setStage {dispatch : Dispatch} (h : dispatch.IsSound) {client : ClientId}
    {stage : Stage} (hstage : dispatch.stage? client = some stage) (other : Stage) :
    (stage.message?.toList ++ (dispatch.setStage client other).held).Perm
      (other.message?.toList ++ dispatch.held) := by
  obtain ⟨before, after, hsplit, hset, -⟩ := exists_split h hstage
  simp only [held, hset other, hsplit, List.filterMap_append, filterMap_message?_cons]
  rw [List.perm_iff_count]
  intro message
  simp only [List.count_append]
  omega

theorem perm_held_leave {dispatch : Dispatch} (h : dispatch.IsSound) {client : ClientId}
    {stage : Stage} (hstage : dispatch.stage? client = some stage) :
    (stage.message?.toList ++ (dispatch.leave client).held).Perm dispatch.held := by
  obtain ⟨before, after, hsplit, -, hleave⟩ := exists_split h hstage
  simp only [held, hleave, hsplit, List.filterMap_append, filterMap_message?_cons]
  rw [List.perm_iff_count]
  intro message
  simp only [List.count_append]
  omega

/-- What a step does to the messages that are held and to those that are pending. -/
inductive Shifts (before after : Dispatch) : Option String → List String → Prop where
  | nothing (hheld : after.held.Perm before.held) (hqueue : after.queue = before.queue) :
      Shifts before after none []
  | publish {message : String} (hheld : after.held = before.held)
      (hqueue : after.queue = before.queue.put message) : Shifts before after (some message) []
  /-- The first message is held. -/
  | take {message : String} (hheld : after.held.Perm (message :: before.held))
      (hqueue : before.queue = after.queue.requeue message) : Shifts before after none []
  /-- A message that was held is delivered. -/
  | deliver {message : String} (hheld : (message :: after.held).Perm before.held)
      (hqueue : after.queue = before.queue) : Shifts before after none [message]
  /-- A message that was held is the first again. -/
  | giveBack {message : String} (hheld : (message :: after.held).Perm before.held)
      (hqueue : after.queue = before.queue.requeue message) : Shifts before after none []

/-- **One step** moves messages on, drops none and doubles none. -/
theorem shifts_step {dispatch : Dispatch} (h : dispatch.IsSound) (next : Step) :
    Shifts dispatch (dispatch.step next).1 next.published?
      ((dispatch.step next).2.map Prod.snd) := by
  have hidle : Shifts dispatch dispatch none [] := .nothing (.refl _) rfl
  cases next with
  | publish message => exact .publish rfl rfl
  | join client =>
    simp only [Dispatch.step]
    split
    · exact .nothing (by simp [held, Stage.message?]) rfl
    · exact hidle
  | take client =>
    simp only [Dispatch.step]
    split
    · next message queue hstage htake =>
      have hsound : ({ dispatch with queue } : Dispatch).IsSound := h
      exact .take (perm_held_setStage hsound hstage (.holding message))
        (Queue.take?_eq_some_iff.1 htake)
    · exact hidle
  | complete client =>
    simp only [Dispatch.step]
    split
    · next hstage => exact .nothing (perm_held_setStage h hstage .waiting) rfl
    · next message hstage => exact .deliver (perm_held_setStage h hstage .waiting) rfl
    · exact hidle
  | fail client =>
    simp only [Dispatch.step]
    split
    · next hstage => exact .nothing (perm_held_leave h hstage) rfl
    · next message hstage =>
      have hsound : ({ dispatch with queue := dispatch.queue.requeue message } : Dispatch).IsSound :=
        h
      exact .giveBack (perm_held_leave hsound hstage) rfl
    · exact hidle
  | cancel client =>
    simp only [Dispatch.step]
    split
    · next hstage => exact .nothing (perm_held_leave h hstage) rfl
    · exact hidle

/-- **One step moves messages and neither makes nor loses any.** -/
theorem Shifts.perm {before after : Dispatch} {published : Option String} {delivered : List String}
    (h : Shifts before after published delivered) :
    (delivered ++ (after.held ++ after.queue.pending)).Perm
      (before.held ++ before.queue.pending ++ published.toList) := by
  cases h with
  | nothing hheld hqueue =>
    simpa [hqueue] using hheld.append_right before.queue.pending
  | publish hheld hqueue => simp [hheld, hqueue]
  | @take message hheld hqueue =>
    have hfront := hheld.append_right after.queue.pending
    simpa [hqueue] using hfront.trans List.perm_middle.symm
  | @deliver message hheld hqueue =>
    simpa [hqueue] using hheld.append_right before.queue.pending
  | @giveBack message hheld hqueue =>
    have hback := hheld.append_right before.queue.pending
    simpa [hqueue] using List.perm_middle.trans hback

theorem eq_nil_of_cons_perm {message : String} {rest all : List String}
    (h : (message :: rest).Perm all) (hall : all.length ≤ 1) : rest = [] ∧ all = [message] := by
  have hlength := h.length_eq
  rw [List.length_cons] at hlength
  have hrest : rest = [] := List.eq_nil_of_length_eq_zero (by omega)
  subst hrest
  exact ⟨rfl, List.perm_singleton.1 h.symm⟩

/-- While one message at most is held, a step keeps the order as well. -/
theorem Shifts.eq {before after : Dispatch} {published : Option String} {delivered : List String}
    (h : Shifts before after published delivered) (hbefore : before.held.length ≤ 1)
    (hafter : after.held.length ≤ 1) :
    delivered ++ (after.held ++ after.queue.pending) =
      before.held ++ before.queue.pending ++ published.toList := by
  cases h with
  | nothing hheld hqueue =>
    have hsame : after.held = before.held := by
      cases hcase : before.held with
      | nil => exact List.perm_nil.1 (hcase ▸ hheld)
      | cons message rest =>
        obtain ⟨hrest, hall⟩ := eq_nil_of_cons_perm (hcase ▸ hheld.symm) hafter
        rw [hall, hrest]
    simp [hsame, hqueue]
  | publish hheld hqueue => simp [hheld, hqueue]
  | @take message hheld hqueue =>
    obtain ⟨hnone, hone⟩ := eq_nil_of_cons_perm hheld.symm hafter
    simp [hnone, hone, hqueue]
  | @deliver message hheld hqueue =>
    obtain ⟨hnone, hone⟩ := eq_nil_of_cons_perm hheld hbefore
    simp [hnone, hone, hqueue]
  | @giveBack message hheld hqueue =>
    obtain ⟨hnone, hone⟩ := eq_nil_of_cons_perm hheld hbefore
    simp [hnone, hone, hqueue]

theorem play_cons (dispatch : Dispatch) (next : Step) (rest : List Step) :
    dispatch.play (next :: rest) =
      (((dispatch.step next).1.play rest).1,
        (dispatch.step next).2 ++ ((dispatch.step next).1.play rest).2) := rfl

theorem play_append (dispatch : Dispatch) (first second : List Step) :
    dispatch.play (first ++ second) =
      (((dispatch.play first).1.play second).1,
        (dispatch.play first).2 ++ ((dispatch.play first).1.play second).2) := by
  induction first generalizing dispatch with
  | nil => rfl
  | cons next first ih => simp [play, ih, List.append_assoc]

theorem published_cons (next : Step) (rest : List Step) :
    published (next :: rest) = next.published?.toList ++ published rest := by
  cases next <;> rfl

theorem isSound_play {dispatch : Dispatch} (h : dispatch.IsSound) (steps : List Step) :
    (dispatch.play steps).1.IsSound := by
  induction steps generalizing dispatch with
  | nil => exact h
  | cons next rest ih => exact ih (h.step next)

/-- **A whole run**: counted with their repetitions, messages are delivered, held or pending. -/
theorem perm_play {dispatch : Dispatch} (h : dispatch.IsSound) (steps : List Step) :
    ((dispatch.play steps).2.map Prod.snd ++
        ((dispatch.play steps).1.held ++ (dispatch.play steps).1.queue.pending)).Perm
      (dispatch.held ++ dispatch.queue.pending ++ published steps) := by
  induction steps generalizing dispatch with
  | nil => simp [play, published]
  | cons next rest ih =>
    have hstep := (shifts_step h next).perm
    have hrest := ih (h.step next)
    rw [play_cons, published_cons, List.map_append, List.append_assoc]
    refine (hrest.append_left _).trans ?_
    rw [← List.append_assoc, ← List.append_assoc _ _ (published rest)]
    exact hstep.append_right _

theorem held_length_le (dispatch : Dispatch) : dispatch.held.length ≤ dispatch.subscribers.length :=
  List.length_filterMap_le _ _

/-- At no time during these steps is more than one message held. -/
def HoldsOneAtMost (dispatch : Dispatch) (steps : List Step) : Prop :=
  ∀ before ∈ steps.inits, (dispatch.play before).1.held.length ≤ 1

instance (dispatch : Dispatch) (steps : List Step) : Decidable (dispatch.HoldsOneAtMost steps) :=
  inferInstanceAs (Decidable (∀ before ∈ steps.inits, _))

theorem HoldsOneAtMost.head {dispatch : Dispatch} {steps : List Step}
    (h : dispatch.HoldsOneAtMost steps) : dispatch.held.length ≤ 1 :=
  h [] ((List.mem_inits _ _).2 List.nil_prefix)

theorem HoldsOneAtMost.tail {dispatch : Dispatch} {next : Step} {rest : List Step}
    (h : dispatch.HoldsOneAtMost (next :: rest)) : (dispatch.step next).1.HoldsOneAtMost rest := by
  intro before hbefore
  refine h (next :: before) ((List.mem_inits _ _).2 ?_)
  exact (List.prefix_cons_inj next).2 ((List.mem_inits _ _).1 hbefore)

/-- Order is kept too while no more than one message is held at a time. -/
theorem HoldsOneAtMost.eq_play {dispatch : Dispatch} {steps : List Step}
    (hone : dispatch.HoldsOneAtMost steps) (h : dispatch.IsSound) :
    (dispatch.play steps).2.map Prod.snd ++
        ((dispatch.play steps).1.held ++ (dispatch.play steps).1.queue.pending) =
      dispatch.held ++ dispatch.queue.pending ++ published steps := by
  induction steps generalizing dispatch with
  | nil => simp [play, published]
  | cons next rest ih =>
    have hstep := (shifts_step h next).eq hone.head hone.tail.head
    have hrest := ih hone.tail (h.step next)
    rw [play_cons, published_cons, List.map_append, List.append_assoc, hrest, ← List.append_assoc,
      hstep, ← List.append_assoc]

/-- At no time during these steps is more than one subscriber attached. -/
def HasOneAtMost (dispatch : Dispatch) (steps : List Step) : Prop :=
  ∀ before ∈ steps.inits, (dispatch.play before).1.subscribers.length ≤ 1

instance (dispatch : Dispatch) (steps : List Step) : Decidable (dispatch.HasOneAtMost steps) :=
  inferInstanceAs (Decidable (∀ before ∈ steps.inits, _))

/-- A single subscriber holds a single message at most. -/
theorem HasOneAtMost.holdsOneAtMost {dispatch : Dispatch} {steps : List Step}
    (h : dispatch.HasOneAtMost steps) : dispatch.HoldsOneAtMost steps :=
  fun before hbefore => Nat.le_trans (held_length_le _) (h before hbefore)

/-- With one subscriber at a time, messages are delivered in the order in which they were published.
-/
theorem eq_play {dispatch : Dispatch} (h : dispatch.IsSound) {steps : List Step}
    (hone : dispatch.HasOneAtMost steps) :
    (dispatch.play steps).2.map Prod.snd ++
        ((dispatch.play steps).1.held ++ (dispatch.play steps).1.queue.pending) =
      dispatch.held ++ dispatch.queue.pending ++ published steps :=
  hone.holdsOneAtMost.eq_play h

end Dispatch

end BrokerCluster.Messaging
