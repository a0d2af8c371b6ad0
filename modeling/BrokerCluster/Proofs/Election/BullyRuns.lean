import Mathlib.Data.List.InsertIdx
import BrokerCluster.Proofs.Election.Bully

/-!
# Elections in `bully` mode, from the first to the last step

Brokers may start elections at any time and steps may come in any order. Once one
election was started, every broker that is up follows the highest of them, or
something under way will see to it.
-/
namespace BrokerCluster.Election

theorem Stage.IsSound.isSeated {roster : Roster} {top : BrokerId} {stage : Stage}
    (h : stage.IsSound roster top) : stage.IsSeated roster := by
  cases stage with
  | change => exact h.1
  | request | reply | finished => trivial

theorem Stage.roster_step (brokers : Brokers) (stage : Stage) :
    (stage.step brokers).1.roster = brokers.roster := by
  cases stage with
  | finished | reply => rfl
  | request receiver errand => simp only [step]; split <;> rfl
  | change owner changes aim =>
    cases changes with
    | cons first later => exact Brokers.roster_updateStatus ..
    | nil =>
      cases aim with
      | nothing | answer => rfl
      | ask purpose rest =>
        cases rest with
        | cons => rfl
        | nil =>
          cases purpose with
          | challenge => exact Brokers.roster_updateStatus ..
          | announce => simp only [step]; split <;> rfl

namespace Net

/-- All that is under way is at some stage, and sound. -/
structure IsAt (roster : Roster) (top : BrokerId) (net : Net) (stages : List Stage) : Prop where
  tasks_eq : net.tasks = stages.map Stage.task
  roster_eq : net.brokers.roster = roster
  sound : ∀ stage ∈ stages, stage.IsSound roster top

/-- What is not settled at a broker that is up is owed to it. -/
def IsCovered (roster : Roster) (top : BrokerId) (net : Net) (stages : List Stage) : Prop :=
  ∀ id, roster.IsUp id → ∀ matter,
    net.brokers.IsSettled top id matter ∨ ∃ stage ∈ stages, stage.Owes id matter

/-- A broker that starts an election owes everything to everyone. -/
theorem isCovered_start {roster : Roster} {top : BrokerId} (net : Net) (stages : List Stage) (owner : Seat) :
    net.IsCovered roster top (stages ++ [Stage.start owner]) :=
  fun _ _ _ => .inr ⟨_, List.mem_append_right _ (List.mem_singleton_self _), .inl trivial⟩

section Mesh

variable {roster : Roster} {top : BrokerId} (hmesh : roster.IsFullMesh .bully)
  (htop : roster.IsHighest top)
include hmesh htop

theorem isAt_initiate {net : Net} {stages : List Stage} (h : net.IsAt roster top stages)
    {id : BrokerId} (hid : roster.IsUp id) :
    ∃ owner, (net.move (.initiate id)).IsAt roster top (stages ++ [Stage.start owner]) := by
  obtain ⟨htasks, hroster, hsound⟩ := h
  subst hroster
  obtain ⟨member, hfound, hmember, rfl⟩ := Brokers.exists_filter_isUp hmesh.nodup hid
  have hmode : member.seat.mode = .bully := hmesh.mode_eq _ hmember
  refine ⟨member.seat, ?_, ?_, fun stage hstage => ?_⟩
  · simp only [move, hfound, htasks, Seat.onItsOwn_initiate hmode, List.map_append,
      List.map_singleton]
  · simp only [move, hfound]
  · rcases List.mem_append.1 hstage with hold | hnew
    · exact hsound stage hold
    · rw [List.mem_singleton.1 hnew]
      exact Stage.isSound_start hmesh htop hmember

/-- A step of one task replaces its stage by those that follow from it, and owes no less. -/
theorem isAt_step {net : Net} {stages : List Stage} (h : net.IsAt roster top stages) {index : Nat}
    {stage : Stage} (hstage : stages[index]? = some stage) (now : Int) :
    (net.move (.step index now)).IsAt roster top
        (stages.eraseIdx index ++ (stage.step net.brokers).2) ∧
      (net.IsCovered roster top stages → (net.move (.step index now)).IsCovered roster top
        (stages.eraseIdx index ++ (stage.step net.brokers).2)) := by
  obtain ⟨htasks, hroster, hsound⟩ := h
  have hmem : stage ∈ stages := List.mem_of_getElem? hstage
  have htask : net.tasks[index]? = some stage.task := by rw [htasks, List.getElem?_map, hstage]; rfl
  have hstep := Stage.step_task (hroster ▸ hmesh) (hroster ▸ (hsound stage hmem).isSeated) now
  have hmove : net.move (.step index now) = ⟨(stage.step net.brokers).1,
      (stages.eraseIdx index ++ (stage.step net.brokers).2).map Stage.task⟩ := by
    simp only [move, htask, hstep]
    rw [htasks, List.eraseIdx_map, List.map_append]
  rw [hmove]
  refine ⟨⟨rfl, (Stage.roster_step _ _).trans hroster, fun other hother => ?_⟩,
    fun hcovered id hid matter => ?_⟩
  · rcases List.mem_append.1 hother with hold | hnew
    · exact hsound other (List.mem_of_mem_eraseIdx hold)
    · exact Stage.isSound_step hmesh htop hroster (hsound stage hmem) other hnew
  · -- what another stage owes it still owes; the rest is between this stage and what it leads to
    by_cases hrest : ∃ other ∈ stages.eraseIdx index, other.Owes id matter
    · obtain ⟨other, hother, howes⟩ := hrest
      exact .inr ⟨other, List.mem_append_left _ hother, howes⟩
    · have hbefore : net.brokers.IsSettled top id matter ∨ stage.Owes id matter := by
        refine (hcovered id hid matter).imp_right fun ⟨other, hother, howes⟩ => ?_
        obtain ⟨place, hplace⟩ := List.mem_iff_getElem?.1 hother
        by_cases hsame : place = index
        · have heq : stage = other := Option.some.inj (hstage.symm.trans (hsame ▸ hplace))
          exact heq ▸ howes
        · exact absurd ⟨other, List.mem_eraseIdx_iff_getElem?.2 ⟨place, hsame, hplace⟩, howes⟩ hrest
      refine (Stage.covered_step hmesh hroster (hsound stage hmem) hid matter hbefore).imp_right ?_
      exact fun ⟨after, hafter, howes⟩ => ⟨after, List.mem_append_right _ hafter, howes⟩

/-- **One move** leaves everything at some stage, and every unsettled matter owed. -/
theorem exists_isAt_move {net : Net} {stages : List Stage} (h : net.IsAt roster top stages)
    (next : Move) : ∃ after, (net.move next).IsAt roster top after ∧
      (net.IsCovered roster top stages → (net.move next).IsCovered roster top after) := by
  cases next with
  | initiate id =>
    cases hfound : (net.brokers.member? id).filter (·.isUp) with
    | none =>
      have hsame : net.move (.initiate id) = net := by simp only [move, hfound]
      exact ⟨stages, by rwa [hsame], by rw [hsame]; exact fun hc => hc⟩
    | some member =>
      have hup := Brokers.isUp_of_filter_eq_some hfound
      rw [h.roster_eq] at hup
      obtain ⟨owner, howner⟩ := isAt_initiate hmesh htop h ⟨member.seat, hup⟩
      exact ⟨_, howner, fun _ => isCovered_start _ stages owner⟩
  | step index now =>
    cases hstage : stages[index]? with
    | none =>
      have hsame : net.move (.step index now) = net := by
        have htask : net.tasks[index]? = none := by rw [h.tasks_eq, List.getElem?_map, hstage]; rfl
        simp only [move, htask]
      exact ⟨stages, by rwa [hsame], by rw [hsame]; exact fun hc => hc⟩
    | some stage => exact ⟨_, isAt_step hmesh htop h hstage now⟩

/-- **A whole run** does so too, whatever is interleaved with what. -/
theorem exists_isAt_play {net : Net} {stages : List Stage} (h : net.IsAt roster top stages)
    (moves : List Move) : ∃ after, (net.play moves).IsAt roster top after ∧
      (net.IsCovered roster top stages → (net.play moves).IsCovered roster top after) := by
  induction moves generalizing net stages with
  | nil => exact ⟨stages, h, id⟩
  | cons next rest ih =>
    obtain ⟨between, hbetween, hfirst⟩ := exists_isAt_move hmesh htop h next
    obtain ⟨after, hafter, hrest⟩ := ih hbetween
    exact ⟨after, hafter, hrest ∘ hfirst⟩

end Mesh

/-- **Agreement in `bully` mode.** Take a full mesh in which some broker that is up starts an
election, whoever else starts one at whatever moment, and in whatever order steps are taken. When
nothing is under way any more, the highest broker that is up leads and all that are up follow it. -/
theorem agreeOn_play (brokers : Brokers) (hmesh : brokers.roster.IsFullMesh .bully)
    (moves : List Move) {id : BrokerId} (hid : brokers.roster.IsUp id)
    (hstart : .initiate id ∈ moves) (hquiet : (Net.play { brokers } moves).tasks = []) :
    ∃ top, brokers.roster.IsHighest top ∧
      (Net.play { brokers } moves).brokers.roster = brokers.roster ∧
      (Net.play { brokers } moves).brokers.AgreeOn top := by
  obtain ⟨top, htop⟩ := Roster.exists_isHighest hid
  obtain ⟨early, late, rfl⟩ := List.append_of_mem hstart
  have hnothing : IsAt brokers.roster top { brokers } [] := ⟨rfl, rfl, by simp⟩
  obtain ⟨between, hbetween, -⟩ := exists_isAt_play hmesh htop hnothing early
  obtain ⟨owner, hstarted⟩ := isAt_initiate hmesh htop hbetween hid
  obtain ⟨after, hafter, hcover⟩ := exists_isAt_play hmesh htop hstarted late
  have hcovered := hcover (isCovered_start _ _ owner)
  have hplay : Net.play { brokers } (early ++ .initiate id :: late) =
      ((Net.play { brokers } early).move (.initiate id)).play late := by
    simp only [play, List.foldl_append, List.foldl_cons]
  rw [hplay] at hquiet ⊢
  have hnone : after = [] := List.map_eq_nil_iff.1 (hafter.tasks_eq.symm.trans hquiet)
  refine ⟨top, htop, hafter.roster_eq, Brokers.agreeOn_of_isSettled fun id hid matter => ?_⟩
  rw [hafter.roster_eq] at hid
  exact (hcovered id hid matter).resolve_right (by simp [hnone])

/-- Three brokers, the highest of which is down but still thinks that it leads. -/
def leaderDown : Brokers where
  members := [
    ⟨⟨1, .bully, [⟨3, "c", 8003⟩, ⟨2, "b", 8002⟩], none⟩,
      ⟨.follower, 3, nobody, 0⟩, true⟩,
    ⟨⟨2, .bully, [⟨1, "a", 8001⟩, ⟨3, "c", 8003⟩], none⟩,
      ⟨.follower, 3, nobody, 0⟩, true⟩,
    ⟨⟨3, .bully, [⟨1, "a", 8001⟩, ⟨2, "b", 8002⟩], none⟩,
      ⟨.leader, 3, nobody, 0⟩, false⟩]

/-- Both brokers that are up start an election, the second in the middle of the first one's. -/
def twoElections : List Move :=
  .initiate 1 :: .step 0 0 :: .step 0 0 :: .initiate 2 :: List.replicate 60 (.step 0 0)

/-- Two elections in one another's way, with the old leader down, end in agreement. -/
theorem leaderDown_agreeOn : leaderDown.roster.IsUp 1 ∧ .initiate 1 ∈ twoElections ∧
    (Net.play { brokers := leaderDown } twoElections).tasks = [] ∧
    ∃ top, leaderDown.roster.IsHighest top ∧
      (Net.play { brokers := leaderDown } twoElections).brokers.roster = leaderDown.roster ∧
      (Net.play { brokers := leaderDown } twoElections).brokers.AgreeOn top := by
  have hmesh : leaderDown.roster.IsFullMesh .bully :=
    ⟨by decide +kernel, by decide +kernel, by decide +kernel⟩
  have hup : leaderDown.roster.IsUp 1 := ⟨_, List.mem_cons_self, rfl⟩
  have hstart : .initiate 1 ∈ twoElections := List.mem_cons_self
  have hquiet : (Net.play { brokers := leaderDown } twoElections).tasks = [] :=
    List.isEmpty_iff.1 (by decide +kernel)
  exact ⟨hup, hstart, hquiet, agreeOn_play leaderDown hmesh twoElections hup hstart hquiet⟩

end Net

end BrokerCluster.Election
