import Mathlib.Data.List.Induction
import BrokerCluster.Proofs.Messaging.Conservation

/-!
# In which order messages are pending

Two messages may have the same text, so a text does not say when its message was published.
But no step looks at a text. So what happens can be followed with marks for texts, a
different one for each message, and the marks tell in which order the messages are.
-/
namespace BrokerCluster.Messaging

open Routing

def Stage.rename (f : String → String) : Stage → Stage
  | .holding message => .holding (f message)
  | .joining => .joining
  | .waiting => .waiting

namespace Dispatch

def Step.rename (f : String → String) : Step → Step
  | .publish message => .publish (f message)
  | .join client => .join client
  | .take client => .take client
  | .complete client => .complete client
  | .fail client => .fail client
  | .cancel client => .cancel client

theorem Step.published?_rename (f : String → String) (step : Step) :
    (step.rename f).published? = step.published?.map f := by
  cases step <;> rfl

/-- A queue and its subscribers with other texts. -/
def rename (f : String → String) (dispatch : Dispatch) : Dispatch where
  queue := { dispatch.queue with pending := dispatch.queue.pending.map f }
  subscribers := dispatch.subscribers.map fun entry => (entry.1, entry.2.rename f)

section Rename

variable (f : String → String) (dispatch : Dispatch)

theorem stage?_rename (client : ClientId) :
    (dispatch.rename f).stage? client = (dispatch.stage? client).map (Stage.rename f) := by
  simp only [stage?, rename]
  induction dispatch.subscribers with
  | nil => rfl
  | cons entry rest ih =>
    rw [List.map_cons, List.lookup_cons, List.lookup_cons]
    split
    · rfl
    · exact ih

theorem setStage_rename (client : ClientId) (stage : Stage) :
    (dispatch.rename f).setStage client (stage.rename f) =
      (dispatch.setStage client stage).rename f := by
  simp only [setStage, rename, List.map_map]
  refine congrArg (Dispatch.mk _) (List.map_congr_left fun entry _ => ?_)
  simp only [Function.comp_apply]
  split <;> rfl

theorem leave_rename (client : ClientId) :
    (dispatch.rename f).leave client = (dispatch.leave client).rename f := by
  simp only [leave, rename, List.filter_map]
  rfl

theorem take?_rename (queue : Queue) :
    ({ queue with pending := queue.pending.map f } : Queue).take? =
      queue.take?.map fun (message, rest) =>
        (f message, { rest with pending := rest.pending.map f }) := by
  cases queue with
  | mk name pending => cases pending <;> rfl

/-- No step depends on what the messages say. -/
theorem step_rename (next : Step) :
    (dispatch.rename f).step (next.rename f) =
      ((dispatch.step next).1.rename f, (dispatch.step next).2.map (Prod.map id f)) := by
  cases next with
  | publish message => simp [Step.rename, Dispatch.step, rename, Queue.put]
  | join client =>
    simp only [Step.rename, Dispatch.step, stage?_rename]
    cases dispatch.stage? client with
    | none => simp [rename, Stage.rename]
    | some stage => rfl
  | take client =>
    simp only [Step.rename, Dispatch.step, stage?_rename]
    have htake : (dispatch.rename f).queue.take? = _ := take?_rename f dispatch.queue
    rw [htake]
    rcases hstage : dispatch.stage? client with _ | (_ | _ | message)
    · rfl
    · rfl
    · cases dispatch.queue.take? with
      | none => rfl
      | some taken =>
        exact congrArg (·, []) (setStage_rename f { dispatch with queue := taken.2 } client
          (.holding taken.1))
    · rfl
  | complete client =>
    simp only [Step.rename, Dispatch.step, stage?_rename]
    rcases hstage : dispatch.stage? client with _ | (_ | _ | message)
    · rfl
    · exact congrArg (·, []) (setStage_rename f dispatch client .waiting)
    · rfl
    · exact congrArg (·, [(client, f message)]) (setStage_rename f dispatch client .waiting)
  | fail client =>
    simp only [Step.rename, Dispatch.step, stage?_rename]
    rcases hstage : dispatch.stage? client with _ | (_ | _ | message)
    · rfl
    · exact congrArg (·, []) (leave_rename f dispatch client)
    · rfl
    · exact congrArg (·, [])
        (leave_rename f { dispatch with queue := dispatch.queue.requeue message } client)
  | cancel client =>
    simp only [Step.rename, Dispatch.step, stage?_rename]
    rcases hstage : dispatch.stage? client with _ | (_ | _ | message)
    · rfl
    · rfl
    · exact congrArg (·, []) (leave_rename f dispatch client)
    · rfl

end Rename

theorem play_rename (f : String → String) (dispatch : Dispatch) (steps : List Step) :
    (dispatch.rename f).play (steps.map (Step.rename f)) =
      ((dispatch.play steps).1.rename f, (dispatch.play steps).2.map (Prod.map id f)) := by
  induction steps generalizing dispatch with
  | nil => rfl
  | cons next rest ih =>
    rw [List.map_cons, play_cons, play_cons, step_rename, ih, List.map_append]

/-- The mark of a message before which `place` others were published. -/
def mark (place : Nat) : String := String.ofList (List.replicate place '|')

@[simp] theorem length_mark (place : Nat) : (mark place).length = place := by
  simp [mark]

/-- The steps with marks for texts, after `place` messages were published. -/
def marked (place : Nat) : List Step → List Step
  | [] => []
  | .publish _ :: rest => .publish (mark place) :: marked (place + 1) rest
  | next :: rest => next :: marked place rest

theorem marked_append (place : Nat) (first second : List Step) :
    marked place (first ++ second) =
      marked place first ++ marked (place + (published first).length) second := by
  induction first generalizing place with
  | nil => rfl
  | cons next rest ih =>
    cases next with
    | publish message =>
      have hlength : (published (.publish message :: rest)).length = (published rest).length + 1 := rfl
      rw [List.cons_append, marked, marked, ih, hlength, List.cons_append]
      congr 3
      omega
    | _ => exact congrArg (_ :: ·) (ih place)

theorem published_marked (place : Nat) (steps : List Step) :
    published (marked place steps) = (List.range' place (published steps).length).map mark := by
  induction steps generalizing place with
  | nil => rfl
  | cons next rest ih =>
    cases next with
    | publish message => exact congrArg (mark place :: ·) (ih (place + 1))
    | _ => exact ih place

/-- Texts for the marks that are right where a message is published are right everywhere. -/
theorem map_rename_marked {f : String → String} {place : Nat} {steps : List Step}
    (h : (published (marked place steps)).map f = published steps) :
    (marked place steps).map (Step.rename f) = steps := by
  induction steps generalizing place with
  | nil => rfl
  | cons next rest ih =>
    cases next with
    | publish message =>
      obtain ⟨hfirst, hrest⟩ := List.cons.inj h
      exact congrArg₂ (fun text steps => .publish text :: steps) hfirst (ih hrest)
    | _ => exact congrArg (_ :: ·) (ih h)

def textOf (steps : List Step) (mark : String) : String :=
  (published steps)[mark.length]?.getD ""

theorem map_textOf_marked (steps : List Step) :
    (marked 0 steps).map (Step.rename (textOf steps)) = steps := by
  refine map_rename_marked ?_
  rw [published_marked, List.map_map]
  refine List.ext_getElem (by simp) fun i _ hi => ?_
  simp [textOf, hi]

variable (name : String)

/-- A queue after some steps, with a mark on each message. -/
def marking (steps : List Step) : Dispatch := ((fresh name).play (marked 0 steps)).1

/-- A run is the run with marks, with each mark read as its message. -/
theorem play_eq_rename_marking (steps : List Step) :
    ((fresh name).play steps).1 = (marking name steps).rename (textOf steps) := by
  have hplay := play_rename (textOf steps) (fresh name) (marked 0 steps)
  rw [map_textOf_marked] at hplay
  exact congrArg Prod.fst hplay

/-- What is pending, each message by its place in the order of publishing. -/
def places (steps : List Step) : List Nat := (marking name steps).queue.pending.map String.length

def heldPlace? (steps : List Step) (client : ClientId) : Option Nat :=
  ((marking name steps).stage? client).bind fun stage => stage.message?.map String.length

/-- A message that comes back goes ahead of all that are pending. -/
theorem pending_step_fail (dispatch : Dispatch) (client : ClientId) :
    (dispatch.step (.fail client)).1.queue.pending =
      ((dispatch.stage? client).bind Stage.message?).toList ++ dispatch.queue.pending := by
  simp only [step]
  rcases hstage : dispatch.stage? client with _ | (_ | _ | message) <;> rfl

/-- But for a message that comes back, messages come in at the end. -/
theorem pending_step_sublist (dispatch : Dispatch) {next : Step} (hnext : ∀ client, next ≠ .fail client) :
    (dispatch.step next).1.queue.pending.Sublist
      (dispatch.queue.pending ++ next.published?.toList) := by
  have hsame : dispatch.queue.pending.Sublist (dispatch.queue.pending ++ []) := by simp
  cases next with
  | publish message => exact .refl _
  | join client =>
    simp only [step]
    split <;> exact hsame
  | take client =>
    simp only [step]
    split
    · next message queue hstage htake =>
      rw [Queue.take?_eq_some_iff.1 htake]
      exact ((List.sublist_cons_self message queue.pending).trans (by simp))
    · exact hsame
  | complete client =>
    simp only [step]
    split <;> exact hsame
  | fail client => exact absurd rfl (hnext client)
  | cancel client =>
    simp only [step]
    split <;> exact hsame

theorem marking_append (earlier : List Step) (next : Step) :
    marking name (earlier ++ [next]) =
      ((marking name earlier).step (next.rename fun _ => mark (published earlier).length)).1 := by
  have hlast : marked (published earlier).length [next] =
      [next.rename fun _ => mark (published earlier).length] := by
    cases next <;> rfl
  rw [marking, marked_append, play_append, Nat.zero_add, hlast]
  rfl

theorem places_append_fail (earlier : List Step) (client : ClientId) :
    places name (earlier ++ [.fail client]) =
      (heldPlace? name earlier client).toList ++ places name earlier := by
  rw [places, marking_append]
  show ((marking name earlier).step (.fail client)).1.queue.pending.map String.length = _
  rw [pending_step_fail, List.map_append, heldPlace?, places]
  congr 1
  cases (marking name earlier).stage? client with
  | none => rfl
  | some stage => cases stage <;> rfl

theorem places_append_sublist (earlier : List Step) {next : Step}
    (hnext : ∀ client, next ≠ .fail client) :
    (places name (earlier ++ [next])).Sublist (places name earlier ++ [(published earlier).length]) := by
  have hrenamed : ∀ client, (next.rename fun _ => mark (published earlier).length) ≠ .fail client := by
    intro client hfail
    cases next <;> cases hfail
    exact hnext client rfl
  have hstep := pending_step_sublist (marking name earlier) hrenamed
  rw [places, marking_append]
  refine (hstep.map String.length).trans ?_
  rw [List.map_append, Step.published?_rename]
  refine List.Sublist.append_left ?_ _
  cases next.published? with
  | none => exact List.nil_sublist _
  | some message =>
    rw [Option.map_some, Option.toList_some, List.map_singleton, length_mark]

/-- Only what was published is pending. -/
theorem lt_of_mem_places {steps : List Step} {place : Nat} (h : place ∈ places name steps) :
    place < (published steps).length := by
  obtain ⟨message, hmessage, rfl⟩ := List.mem_map.1 h
  have hplay := perm_play (isSound_fresh name) (marked 0 steps)
  have hmem : message ∈ published (marked 0 steps) := by
    have hall := hplay.mem_iff.1 (List.mem_append_right _ (List.mem_append_right _ hmessage))
    simpa [fresh, held, Queue.fresh] using hall
  rw [published_marked] at hmem
  obtain ⟨first, hfirst, rfl⟩ := List.mem_map.1 hmem
  rw [length_mark]
  simpa using hfirst

/-- Messages stay in order as long as none comes back after an earlier one that is pending. -/
theorem pairwise_places_iff (steps : List Step) :
    (∀ before, before <+: steps → (places name before).Pairwise (· < ·)) ↔
      ∀ earlier client later, steps = earlier ++ .fail client :: later →
        ∀ own ∈ heldPlace? name earlier client, ∀ place ∈ places name earlier, own < place := by
  constructor
  · rintro hsorted earlier client later rfl own hown
    have hafter := hsorted (earlier ++ [.fail client]) ⟨later, by simp⟩
    rw [places_append_fail, Option.mem_def.1 hown, Option.toList_some] at hafter
    exact (List.pairwise_cons.1 hafter).1
  · intro hback before hbefore
    induction before using List.reverseRecOn with
    | nil => exact .nil
    | append_singleton earlier next ih =>
      have hearlier := ih ((List.prefix_append _ _).trans hbefore)
      obtain ⟨later, rfl⟩ := hbefore
      by_cases hnext : ∃ client, next = .fail client
      · obtain ⟨client, rfl⟩ := hnext
        rw [places_append_fail]
        cases hheld : heldPlace? name earlier client with
        | none => exact hearlier
        | some own =>
          refine List.pairwise_cons.2 ⟨?_, hearlier⟩
          exact hback earlier client later (List.append_assoc ..) own hheld
      -- What is published now comes after all that was published before.
      · have hsub := places_append_sublist name earlier fun client h => hnext ⟨client, h⟩
        refine List.Pairwise.sublist hsub (List.pairwise_append.2 ⟨hearlier,
          List.pairwise_singleton _ _, fun place hplace => ?_⟩)
        exact List.forall_mem_singleton.2 (lt_of_mem_places name hplace)

/-- Of so many messages published, those from a place on have never been taken. They are pending behind
all that came back. -/
def IsLayered (dispatch : Dispatch) (count : Nat) : Prop :=
  ∃ back first, dispatch.queue.pending.map String.length = back ++ List.range' first (count - first) ∧
    first ≤ count ∧ (∀ place ∈ back, place < first) ∧ ∀ message ∈ dispatch.held, message.length < first

section Layers

variable {before after : Dispatch} {message : String} {count : Nat}

theorem IsLayered.of_queue_eq (h : before.IsLayered count) (hafter : after.held ⊆ before.held)
    (hqueue : after.queue = before.queue) : after.IsLayered count := by
  obtain ⟨back, first, hpending, hfirst, hback, hheld⟩ := h
  exact ⟨back, first, hqueue ▸ hpending, hfirst, hback, fun other hmem => hheld other (hafter hmem)⟩

theorem IsLayered.put (h : before.IsLayered count) (hafter : after.held = before.held)
    (hqueue : after.queue = before.queue.put message) (hplace : message.length = count) :
    after.IsLayered (count + 1) := by
  obtain ⟨back, first, hpending, hfirst, hback, hheld⟩ := h
  have hlast : List.range' first (count + 1 - first) = List.range' first (count - first) ++ [count] := by
    rw [Nat.succ_sub hfirst, List.range'_1_concat, Nat.add_sub_cancel' hfirst]
  refine ⟨back, first, ?_, Nat.le_succ_of_le hfirst, hback, hafter ▸ hheld⟩
  rw [hqueue, Queue.pending_put, List.map_append, hpending, List.append_assoc, hlast,
    List.map_singleton, hplace]

/-- The first message that is pending came back, or nobody has taken it before. -/
theorem IsLayered.take (h : before.IsLayered count)
    (hafter : after.held.Perm (message :: before.held))
    (hqueue : before.queue = after.queue.requeue message) : after.IsLayered count := by
  obtain ⟨back, first, hpending, hfirst, hback, hheld⟩ := h
  have hmessages : message.length :: after.queue.pending.map String.length =
      back ++ List.range' first (count - first) := by
    rw [← hpending, hqueue]
    rfl
  cases back with
  | cons place back =>
    obtain ⟨rfl, hrest⟩ := List.cons.inj hmessages
    obtain ⟨hown, hback⟩ := List.forall_mem_cons.1 hback
    refine ⟨back, first, hrest, hfirst, hback, fun other hmem => ?_⟩
    rcases List.mem_cons.1 (hafter.mem_iff.1 hmem) with rfl | hbefore
    · exact hown
    · exact hheld other hbefore
  | nil =>
    obtain ⟨later, hlater⟩ : ∃ later, count - first = later + 1 := by
      apply Nat.exists_eq_succ_of_ne_zero
      intro hzero
      rw [hzero] at hmessages
      cases hmessages
    rw [hlater, List.nil_append, List.range'_succ] at hmessages
    obtain ⟨hown, hrest⟩ := List.cons.inj hmessages
    have hcount : count - (first + 1) = later := by omega
    refine ⟨[], first + 1, ?_, by omega, by simp, fun other hmem => ?_⟩
    · rw [hrest, hcount, List.nil_append]
    · rcases List.mem_cons.1 (hafter.mem_iff.1 hmem) with rfl | hbefore
      · omega
      · have hlt := hheld other hbefore
        omega

/-- Whatever is held has been taken, so it comes back before what nobody has taken. -/
theorem IsLayered.requeue (h : before.IsLayered count)
    (hafter : (message :: after.held).Perm before.held)
    (hqueue : after.queue = before.queue.requeue message) : after.IsLayered count := by
  obtain ⟨back, first, hpending, hfirst, hback, hheld⟩ := h
  have hown : message.length < first := hheld message (hafter.mem_iff.1 List.mem_cons_self)
  refine ⟨message.length :: back, first, ?_, hfirst, List.forall_mem_cons.2 ⟨hown, hback⟩,
    fun other hmem => hheld other (hafter.mem_iff.1 (List.mem_cons_of_mem _ hmem))⟩
  rw [hqueue, Queue.pending_requeue, List.map_cons, hpending, List.cons_append]

/-- One step keeps the layers: what is taken comes from the top, what comes back goes there, what is
published goes below. -/
theorem IsLayered.shift {published : Option String} {delivered : List String}
    (h : before.IsLayered count) (hshift : Shifts before after published delivered)
    (hplace : ∀ message ∈ published, message.length = count) :
    after.IsLayered (count + published.toList.length) := by
  cases hshift with
  | nothing hafter hqueue => exact h.of_queue_eq hafter.subset hqueue
  | publish hafter hqueue => exact h.put hafter hqueue (hplace _ rfl)
  | take hafter hqueue => exact h.take hafter hqueue
  | deliver hafter hqueue =>
    exact h.of_queue_eq (List.Subset.trans (List.subset_cons_self _ _) hafter.subset) hqueue
  | giveBack hafter hqueue => exact h.requeue hafter hqueue

end Layers

theorem isLayered_marking (steps : List Step) :
    (marking name steps).IsLayered (published steps).length := by
  induction steps using List.reverseRecOn with
  | nil => exact ⟨[], 0, rfl, Nat.le_refl 0, by simp, by simp [marking, marked, play, fresh, held]⟩
  | append_singleton earlier next ih =>
    have hsound : (marking name earlier).IsSound := isSound_play (isSound_fresh name) _
    have hshift := shifts_step hsound (next.rename fun _ => mark (published earlier).length)
    have hmark : ∀ message ∈ (next.rename fun _ => mark (published earlier).length).published?,
        message.length = (published earlier).length := by
      intro message hmessage
      rw [Step.published?_rename] at hmessage
      obtain ⟨text, -, rfl⟩ := Option.map_eq_some_iff.1 hmessage
      exact length_mark _
    have hlength : (published (earlier ++ [next])).length = (published earlier).length +
        (next.rename fun _ => mark (published earlier).length).published?.toList.length := by
      cases next <;> simp [published, Step.rename, Step.published?]
    rw [marking_append, hlength]
    exact ih.shift hshift hmark

/-- **In which order messages are pending.** Take a new queue, any publishes and any steps of any number
of subscribers, and tell what is pending by the places at which it was published. Messages that nobody
has taken are in order, behind those that came back because they could not be written. Everything is
always in order exactly if no message comes back while one that was published before it is pending. While
no two messages are held at a time, all that was delivered, is held and is pending is in order. -/
theorem pending_in_order_iff (steps : List Step) :
    ((fresh name).play steps).1.queue.pending.map some =
        (places name steps).map ((published steps)[·]?) ∧
    (∃ back first, places name steps = back ++ List.range' first ((published steps).length - first) ∧
      first ≤ (published steps).length ∧ ∀ place ∈ back, place < first) ∧
    ((∀ before, before <+: steps → (places name before).Pairwise (· < ·)) ↔
      ∀ earlier client later, steps = earlier ++ .fail client :: later →
        ∀ own ∈ heldPlace? name earlier client, ∀ place ∈ places name earlier, own < place) ∧
    ((fresh name).HoldsOneAtMost steps →
      ((fresh name).play steps).2.map Prod.snd ++
        (((fresh name).play steps).1.held ++ ((fresh name).play steps).1.queue.pending) =
          published steps) := by
  obtain ⟨back, first, hplaces, hfirst, hback, -⟩ := isLayered_marking name steps
  refine ⟨?_, ⟨back, first, hplaces, hfirst, hback⟩, pairwise_places_iff name steps, fun hone => ?_⟩
  · rw [play_eq_rename_marking, places]
    simp only [rename, List.map_map]
    refine List.map_congr_left fun message hmessage => ?_
    have hlt := lt_of_mem_places name (List.mem_map_of_mem hmessage)
    simp [textOf, hlt]
  · have hplay := hone.eq_play (isSound_fresh name)
    simpa [fresh, held, Queue.fresh] using hplay

/-- Two subscribers hold a message each. Neither can write it, and the first gives up first. -/
def backInTurn : List Step :=
  [.publish "a", .publish "b", .join 1, .complete 1, .join 2, .complete 2, .take 1, .take 2, .fail 1,
    .fail 2]

/-- The later message is the first again, and a third subscriber gets it first. -/
theorem backInTurn_reversed :
    published backInTurn = ["a", "b"] ∧ ((fresh "q").play backInTurn).1.queue.pending = ["b", "a"] ∧
      places "q" backInTurn = [1, 0] ∧
      ((fresh "q").play (backInTurn ++ [.join 3, .complete 3, .take 3, .complete 3, .take 3,
        .complete 3])).2 = [(3, "b"), (3, "a")] := by
  decide +kernel

end Dispatch

end BrokerCluster.Messaging
