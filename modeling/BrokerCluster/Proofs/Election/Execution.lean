import BrokerCluster.Election.Cluster
import BrokerCluster.Proofs.Election.Agreement
import BrokerCluster.Proofs.Election.Requests

/-!
# What a cluster does with enough fuel

A run that ends has one result from some amount of fuel on, and that result follows
from those of its parts, one rule for each kind of step.
-/
namespace BrokerCluster.Election

/-- An action and what follows it run as one. -/
theorem Action.run_bind {m : Type → Type} [Monad m] [LawfulMonad m] (interpreter : Interpreter m)
    {α β : Type} (action : Action α) (next : α → Action β) :
    (action.bind next).run interpreter =
      action.run interpreter >>= fun result => (next result).run interpreter := by
  induction action with
  | done => simp [Action.bind, Action.run]
  | update change next ih => simp [Action.bind, Action.run, ih]
  | ask peer line next ih => simp [Action.bind, Action.run, ih]
  | register name address next ih => simp [Action.bind, Action.run, ih]

namespace Cluster

/-- An action of a broker ends with a result, given enough fuel. -/
def Performs (now : Int) (id : BrokerId) {α : Type} (action : Action α) (before : Cluster)
    (result : α) (after : Cluster) : Prop :=
  ∃ least, ∀ fuel, least ≤ fuel → (perform now fuel id action).run before = some (result, after)

/-- All that is left to do is done, given enough fuel. -/
def Finishes (now : Int) (before after : Cluster) : Prop :=
  ∃ least, ∀ fuel, least ≤ fuel → (finish now fuel).run before = some ((), after)

/-- An election that a broker starts ends, given enough fuel. -/
def Elects (now : Int) (id : BrokerId) (before after : Cluster) : Prop :=
  ∃ least, ∀ fuel, least ≤ fuel → (elect now fuel id).run before = some ((), after)

variable {now : Int} {id : BrokerId} {α β : Type} {before between after : Cluster} {result : α}

namespace Performs

theorem done (result : α) (cluster : Cluster) :
    Performs now id (.done result) cluster result cluster := by
  refine ⟨1, fun fuel hfuel => ?_⟩
  obtain ⟨fuel, rfl⟩ := Nat.exists_eq_add_of_le' hfuel
  rfl

theorem bind {action : Action α} {next : α → Action β} {last : β}
    (hfirst : Performs now id action before result between)
    (hnext : Performs now id (next result) between last after) :
    Performs now id (action.bind next) before last after := by
  obtain ⟨leastFirst, hfirst⟩ := hfirst
  obtain ⟨leastNext, hnext⟩ := hnext
  refine ⟨leastFirst + leastNext + 1, fun fuel hfuel => ?_⟩
  obtain ⟨extra, rfl⟩ := Nat.exists_eq_add_of_le' hfuel
  have hbind : perform now (extra + (leastFirst + leastNext + 1)) id (action.bind next) =
      perform now (extra + (leastFirst + leastNext + 1)) id action >>= fun result =>
        perform now (extra + (leastFirst + leastNext + 1)) id (next result) :=
    Action.run_bind _ action next
  rw [hbind, StateT.run_bind, hfirst _ (by omega)]
  exact hnext _ (by omega)

theorem update {change : Status → Status} {next : Status → Action α} {member : Member}
    (hmember : before.member? id = some member)
    (hnext : Performs now id (next member.status)
      { before with toBrokers := before.toBrokers.updateStatus id change } result after) :
    Performs now id (.update change next) before result after := by
  obtain ⟨least, hnext⟩ := hnext
  refine ⟨least + 1, fun fuel hfuel => ?_⟩
  obtain ⟨extra, rfl⟩ := Nat.exists_eq_add_of_le' hfuel
  have hupdate : (updateStatus id change).run before = some (member.status,
      { before with toBrokers := before.toBrokers.updateStatus id change }) := by
    simp [updateStatus, updateBrokers, hmember]
  have hstep : perform now (extra + (least + 1)) id (.update change next) =
      updateStatus id change >>= fun status =>
        perform now (extra + (least + 1)) id (next status) := rfl
  rw [hstep, StateT.run_bind, hupdate]
  exact hnext (extra + (least + 1)) (by omega)

theorem register {name address : String} {next : Action α}
    (hnext : Performs now id next
      { before with toBrokers := before.toBrokers.register name address } result after) :
    Performs now id (.register name address next) before result after := by
  obtain ⟨least, hnext⟩ := hnext
  refine ⟨least + 1, fun fuel hfuel => ?_⟩
  obtain ⟨extra, rfl⟩ := Nat.exists_eq_add_of_le' hfuel
  exact hnext (extra + (least + 1)) (by omega)

variable {peer : Peer} {line : String} {next : Option String → Action α}

/-- A peer that is down gives no reply. -/
theorem ask_down (hpeer : (before.member? peer.id).filter (·.isUp) = none)
    (hnext : Performs now id (next none) before result after) :
    Performs now id (.ask peer line next) before result after := by
  obtain ⟨least, hnext⟩ := hnext
  refine ⟨least + 1, fun fuel hfuel => ?_⟩
  obtain ⟨extra, rfl⟩ := Nat.exists_eq_add_of_le' hfuel
  have hstep : (perform now (extra + (least + 1)) id (.ask peer line next)).run before =
      (perform now (extra + (least + 1)) id (next none)).run before := by
    cases hfound : before.member? peer.id with
    | none => simp [perform, Action.run, hfound]
    | some member =>
      have hdown : member.isUp = false := by simpa [hfound] using hpeer
      simp [perform, Action.run, hfound, hdown]
  rw [hstep]
  exact hnext _ (by omega)

/-- A peer that is up answers; what that leaves to be done is set aside. -/
theorem ask_up {member : Member} {answer : Answer} {nested : List Contact}
    (hpeer : (before.member? peer.id).filter (·.isUp) = some member)
    (hanswer : Performs now peer.id (member.seat.answer now (.ofLine line))
      { before with log := before.log ++ [⟨id, peer.id, line, none⟩] } answer between)
    (hlog : between.log = before.log ++ ⟨id, peer.id, line, none⟩ :: nested)
    (hnext : Performs now id (next answer.reply)
      { between with
        waiting := between.waiting ++ answer.followUp.toList.map (peer.id, ·)
        log := before.log ++ ⟨id, peer.id, line, answer.reply⟩ :: nested } result after) :
    Performs now id (.ask peer line next) before result after := by
  obtain ⟨leastAnswer, hanswer⟩ := hanswer
  obtain ⟨leastNext, hnext⟩ := hnext
  refine ⟨leastAnswer + leastNext + 1, fun fuel hfuel => ?_⟩
  obtain ⟨extra, rfl⟩ := Nat.exists_eq_add_of_le' hfuel
  obtain ⟨hfound, hup⟩ := Option.filter_eq_some_iff.1 hpeer
  have hreply : between.log.modify before.log.length (fun contact => { contact with reply := answer.reply }) =
      before.log ++ ⟨id, peer.id, line, answer.reply⟩ :: nested := by
    rw [hlog, List.modify_eq_take_cons_drop (by simp)]
    simp
  have hanswer' := hanswer (extra + (leastAnswer + leastNext)) (by omega)
  have hstep : (perform now (extra + (leastAnswer + leastNext + 1)) id (.ask peer line next)).run
      before = (perform now (extra + (leastAnswer + leastNext + 1)) id (next answer.reply)).run
        { between with
          waiting := between.waiting ++ answer.followUp.toList.map (peer.id, ·)
          log := before.log ++ ⟨id, peer.id, line, answer.reply⟩ :: nested } := by
    simp [perform, Action.run, hfound, hup, note, hanswer', setAside, noteReply, hreply]
  rw [hstep]
  exact hnext _ (by omega)

theorem changes (hnodup : before.roster.ids.Nodup) (hid : before.roster.IsUp id)
    {changes : List Change} {action : Action α}
    (hnext : Performs now id action
      { before with toBrokers := before.toBrokers.changeAll id changes } result after) :
    Performs now id (Change.before changes action) before result after := by
  induction changes generalizing before with
  | nil => exact hnext
  | cons first later ih =>
    obtain ⟨seat, hseat, rfl⟩ := hid
    obtain ⟨member, hmember, -, -⟩ := Brokers.member?_of_mem_roster hnodup hseat
    refine update hmember (ih ?_ ?_ hnext)
    · simpa using hnodup
    · exact ⟨seat, by simpa using hseat, rfl⟩

/-- Peers that are down are passed over, and the first that is up is asked. -/
theorem askUntil {expected : String} {down rest : List Peer} {member : Member} {answer : Answer}
    {nested : List Contact}
    (hdown : ∀ other ∈ down, (before.member? other.id).filter (·.isUp) = none)
    (hpeer : (before.member? peer.id).filter (·.isUp) = some member)
    (hanswer : Performs now peer.id (member.seat.answer now (.ofLine line))
      { before with log := before.log ++ [⟨id, peer.id, line, none⟩] } answer between)
    (hlog : between.log = before.log ++ ⟨id, peer.id, line, none⟩ :: nested)
    (hexpected : isExpected expected answer.reply = true) :
    Performs now id (askUntil Action.askPeer line expected (down ++ peer :: rest)) before true
      { between with
        waiting := between.waiting ++ answer.followUp.toList.map (peer.id, ·)
        log := before.log ++ ⟨id, peer.id, line, answer.reply⟩ :: nested } := by
  induction down with
  | nil =>
    refine ask_up hpeer hanswer hlog ?_
    change Performs now id (if isExpected expected answer.reply then .done true else _) _ _ _
    rw [if_pos hexpected]
    exact done true _
  | cons first down ih =>
    refine ask_down (hdown first List.mem_cons_self) ?_
    exact ih fun other hother => hdown other (List.mem_cons_of_mem _ hother)

/-- Peers that are all down give no reply. -/
theorem askUntil_down {expected : String} {peers : List Peer}
    (hdown : ∀ other ∈ peers, (before.member? other.id).filter (·.isUp) = none) :
    Performs now id (Election.askUntil Action.askPeer line expected peers) before false before := by
  induction peers with
  | nil => exact done false before
  | cons first rest ih =>
    refine ask_down (hdown first List.mem_cons_self) ?_
    exact ih fun other hother => hdown other (List.mem_cons_of_mem _ hother)

end Performs

theorem Finishes.nil {cluster : Cluster} (h : cluster.waiting = []) :
    Finishes now cluster cluster := by
  refine ⟨1, fun fuel hfuel => ?_⟩
  obtain ⟨fuel, rfl⟩ := Nat.exists_eq_add_of_le' hfuel
  simp [finish, h]

/-- What was set aside first is done first. -/
theorem finishes_cons_iff {followUp : FollowUp} {rest : List (BrokerId × FollowUp)}
    {member : Member} (hwaiting : before.waiting = (id, followUp) :: rest)
    (hmember : before.member? id = some member)
    (hfirst : Performs now id (member.seat.complete followUp) { before with waiting := rest } ()
      between) :
    Finishes now before after ↔ Finishes now between after := by
  obtain ⟨leastFirst, hfirst⟩ := hfirst
  have hstep : ∀ fuel, leastFirst ≤ fuel →
      (finish now (fuel + 1)).run before = (finish now fuel).run between := by
    intro fuel hfuel
    simp [finish, hwaiting, hmember, hfirst fuel hfuel]
  constructor
  · rintro ⟨least, hfinish⟩
    refine ⟨leastFirst + least, fun fuel hfuel => ?_⟩
    rw [← hstep fuel (by omega)]
    exact hfinish (fuel + 1) (by omega)
  · rintro ⟨least, hfinish⟩
    refine ⟨leastFirst + least + 1, fun fuel hfuel => ?_⟩
    obtain ⟨extra, rfl⟩ := Nat.exists_eq_add_of_le' hfuel
    rw [← Nat.add_assoc, hstep _ (by omega)]
    exact hfinish _ (by omega)

theorem Elects.of_performs {member : Member}
    (hmember : (before.member? id).filter (·.isUp) = some member)
    (hfirst : Performs now id member.seat.initiate before () between)
    (hrest : Finishes now between after) : Elects now id before after := by
  obtain ⟨leastFirst, hfirst⟩ := hfirst
  obtain ⟨leastRest, hrest⟩ := hrest
  obtain ⟨hfound, hup⟩ := Option.filter_eq_some_iff.1 hmember
  refine ⟨leastFirst + leastRest, fun fuel hfuel => ?_⟩
  have hfirst' := hfirst fuel (by omega)
  have hrest' := hrest fuel (by omega)
  simp [elect, settle, hfound, hup, hfirst', hrest']

theorem Elects.of_initiate (hnodup : before.roster.ids.Nodup) {owner : Seat}
    (howner : (owner, true) ∈ before.roster)
    (hfirst : Performs now owner.id owner.initiate before () between)
    (hrest : Finishes now between after) : Elects now owner.id before after := by
  obtain ⟨member, hmember, rfl, hup⟩ := Brokers.member?_of_mem_roster hnodup howner
  have hfound : (before.member? member.seat.id).filter (·.isUp) = some member := by
    rw [hmember, Option.filter_some_pos hup]
  exact Elects.of_performs hfound hfirst hrest

/-- A broker that is down starts no election. -/
theorem Elects.of_down (hdown : (before.member? id).filter (·.isUp) = none) :
    Elects now id before before := by
  refine ⟨0, fun fuel _ => ?_⟩
  cases hfound : before.member? id with
  | none => simp [elect, hfound]
  | some member =>
    have hnot : member.isUp = false := by simpa [hfound] using hdown
    simp [elect, hfound, hnot]

/-- More fuel gives no other result. -/
theorem Elects.unique {other : Cluster} (hafter : Elects now id before after)
    (hother : Elects now id before other) : after = other := by
  obtain ⟨least, hafter⟩ := hafter
  obtain ⟨leastOther, hother⟩ := hother
  have hsame := (hafter (least + leastOther) (by omega)).symm.trans (hother _ (by omega))
  exact congrArg Prod.snd (Option.some.inj hsame)

/-- What happens to a cluster that runs one election at a time. -/
inductive Event where
  | elect (id : BrokerId) (now : Int)
  | shutDown (id : BrokerId)

def Event.Takes (before after : Cluster) : Event → Prop
  | elect id now => Elects now id before after
  | shutDown id => after = before.shutDown id

/-- A history takes a cluster from one state to another, every election run to its end. -/
def Runs : List Event → Cluster → Cluster → Prop
  | [], before, after => after = before
  | event :: later, before, after => ∃ between, event.Takes before between ∧ Runs later between after

theorem Event.Takes.unique {event : Event} {other : Cluster} (hafter : event.Takes before after)
    (hother : event.Takes before other) : after = other := by
  cases event with
  | elect id now => exact Elects.unique hafter hother
  | shutDown id => exact hafter.trans hother.symm

/-- A history can end in one state only. -/
theorem Runs.unique {events : List Event} {other : Cluster} (hafter : Runs events before after)
    (hother : Runs events before other) : after = other := by
  induction events generalizing before with
  | nil => exact hafter.trans hother.symm
  | cons event later ih =>
    obtain ⟨between, hfirst, hlater⟩ := hafter
    obtain ⟨betweenOther, hfirstOther, hlaterOther⟩ := hother
    exact ih (hfirst.unique hfirstOther ▸ hlater) hlaterOther

end Cluster

end BrokerCluster.Election
