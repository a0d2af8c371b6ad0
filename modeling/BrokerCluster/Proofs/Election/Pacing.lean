import Mathlib.Data.List.Chain
import Mathlib.Data.List.Induction
import BrokerCluster.Proofs.Election.Timekeeping

/-!
# When a monitor starts elections

Only pings and polls that start elections touch the time of the last heartbeat, however
all that is under way is interleaved. So as long as the clock never runs backwards it is
the time of the latest of these, and a poll starts an election when that is long past.
-/
namespace BrokerCluster.Election

theorem Status.isExpired_iff {status : Status} {timeout : UInt64} {now : Int} :
    status.isExpired timeout now ↔
      status.role ≠ .leader ∧ timeout.toNat < now - status.lastHeartbeat := by
  rw [isExpired, Bool.and_eq_true, decide_eq_true_iff, Bool.not_eq_true', isLeader,
    beq_eq_false_iff_ne, silence]
  exact and_congr_right fun _ => by omega

theorem Seat.poll_eq (seat : Seat) (timeout : UInt64) (now : Int) :
    seat.poll timeout now = .update (fun status => status) fun status =>
      if status.isExpired timeout now then do
        Action.change fun status => status.heard now
        seat.initiate
        return true
      else .done false := rfl

/-- What a poll sets out on once it has looked at the status. -/
theorem Seat.advance_poll (seat : Seat) (timeout : UInt64) (now : Int) (status : Status) :
    (seat.poll timeout now).advance status =
      if status.isExpired timeout now then
        (do seat.initiate; pure true : Action Bool).advance (status.heard now)
      else (status, .done false) := by
  rw [poll_eq, Action.advance]
  split <;> rfl

theorem Seat.endsWith_start (seat : Seat) :
    (do seat.initiate; pure true : Action Bool).EndsWith true := Action.EndsWith.bind fun _ => rfl

/-- A poll that has looked at the status will say whether the leader was silent for too long. -/
theorem Seat.endsWith_poll (seat : Seat) (timeout : UInt64) (now : Int) (status : Status) :
    ((seat.poll timeout now).advance status).2.EndsWith (status.isExpired timeout now) := by
  rw [seat.advance_poll]
  split
  · next hexpired =>
    rw [hexpired]
    exact seat.endsWith_start.advance _
  · next hexpired => exact (Bool.not_eq_true _ ▸ hexpired).symm

namespace Watch

variable {seat : Seat} {timeout : UInt64} {watch : Watch}

theorem hasStarted_of_endsWith {action : Action Bool} (h : action.EndsWith true) :
    hasStarted action = true := by
  cases action with
  | done => exact h
  | update | ask | register => rfl

def starts (seat : Seat) (timeout : UInt64) (watch : Watch) (now : Int) : Bool :=
  (watch.handle seat timeout (.poll now)).2

/-- Whether an election is started depends on the status at the moment of the poll only. -/
theorem starts_eq (seat : Seat) (timeout : UInt64) (watch : Watch) (now : Int) :
    watch.starts seat timeout now = watch.status.isExpired timeout now := by
  change hasStarted ((seat.poll timeout now).advance watch.status).2 = _
  rw [seat.advance_poll]
  split
  · next hexpired => rw [hasStarted_of_endsWith (seat.endsWith_start.advance _), hexpired]
  · next hexpired => exact (Bool.not_eq_true _ ▸ hexpired).symm

/-- A poll that is carried out says in the end what is said of it when it begins. -/
theorem run_poll (seat : Seat) (timeout : UInt64) (now : Int) (replies : Replies)
    (conduct : Conduct) :
    (((seat.poll timeout now).run (Conduct.interpreter replies)).run conduct).1 =
      conduct.status.isExpired timeout now := by
  rw [Action.run_advance]
  exact (((seat.endsWith_poll timeout now conduct.status).ensures _).run replies _).1

/-- Nothing under way will touch the time of the last heartbeat. -/
def IsSound (watch : Watch) : Prop := ∀ task ∈ watch.tasks, task.OnlyMakes KeepsTime

/-- The time at which an event is a ping, or a poll that starts an election. -/
def renewal? (seat : Seat) (timeout : UInt64) (watch : Watch) : Event → Option Int
  | .poll now => if watch.starts seat timeout now then some now else none
  | .request .ping now => some now
  | _ => none

/-- What the broker sets out on is under way from then on. -/
theorem IsSound.setOut {α : Type} (h : watch.IsSound) {action rest : Action α} {status : Status}
    (hadvance : action.advance watch.status = (status, rest)) (hrest : rest.OnlyMakes KeepsTime)
    (followUp? : α → Option FollowUp) : (watch.setOut action followUp?).1.IsSound ∧
      (watch.setOut action followUp?).1.status = status := by
  have hset : watch.setOut action followUp? =
      ({ status, tasks := watch.tasks ++ [followUp? <$> rest] }, rest) := by
    rw [Watch.setOut, hadvance]
  rw [hset]
  refine ⟨fun task htask => ?_, rfl⟩
  rcases List.mem_append.1 htask with hold | hnew
  · exact h task hold
  · rw [List.mem_singleton.1 hnew]
    exact hrest.map followUp?

theorem IsSound.setOut_of_onlyMakes {α : Type} (h : watch.IsSound) {action : Action α}
    (haction : action.OnlyMakes KeepsTime) (followUp? : α → Option FollowUp) :
    (watch.setOut action followUp?).1.IsSound ∧
      (watch.setOut action followUp?).1.status.lastHeartbeat = watch.status.lastHeartbeat := by
  obtain ⟨hsound, hstatus⟩ := h.setOut rfl (haction.advance watch.status) followUp?
  exact ⟨hsound, (congrArg Status.lastHeartbeat hstatus).trans (haction.lastHeartbeat_advance _)⟩

theorem onlyMakes_goOn {task : Action (Option FollowUp)} (h : task.OnlyMakes KeepsTime)
    (reply : Option String) : (goOn seat reply task).OnlyMakes KeepsTime := by
  unfold Watch.goOn
  split
  · exact h reply
  · exact h
  · exact (seat.keepsTime_complete _).bind fun _ => Action.onlyMakes_done _
  · exact h

/-- **One event** touches the time of the last heartbeat only if it is a ping or a poll that starts
an election. -/
theorem IsSound.handle (seat : Seat) (timeout : UInt64) (h : watch.IsSound) (event : Event) :
    (watch.handle seat timeout event).1.IsSound ∧
      (watch.handle seat timeout event).1.status.lastHeartbeat =
        (watch.renewal? seat timeout event).getD watch.status.lastHeartbeat := by
  cases event with
  | poll now =>
    have hstart : (do seat.initiate; pure true : Action Bool).OnlyMakes KeepsTime :=
      seat.keepsTime_initiate.bind fun _ => Action.onlyMakes_done _
    have hadvance := seat.advance_poll timeout now watch.status
    rw [renewal?, starts_eq]
    split at hadvance
    · next hexpired =>
      obtain ⟨hsound, hstatus⟩ := h.setOut hadvance (hstart.advance _) fun _ => none
      rw [if_pos hexpired]
      exact ⟨hsound, (congrArg Status.lastHeartbeat hstatus).trans (hstart.lastHeartbeat_advance _)⟩
    · next hexpired =>
      obtain ⟨hsound, hstatus⟩ := h.setOut hadvance (Action.onlyMakes_done _) fun _ => none
      rw [if_neg hexpired]
      exact ⟨hsound, congrArg Status.lastHeartbeat hstatus⟩
  | request request now =>
    by_cases hping : request = .ping
    · subst hping
      have hadvance : (seat.answer now .ping).advance watch.status =
          (watch.status.heard now, .done { reply := some pongReply }) := rfl
      obtain ⟨hsound, hstatus⟩ := h.setOut hadvance (Action.onlyMakes_done _) (·.followUp)
      exact ⟨hsound, congrArg Status.lastHeartbeat hstatus⟩
    · have hnone : watch.renewal? seat timeout (.request request now) = none := by
        cases request <;> first | rfl | exact absurd rfl hping
      rw [hnone]
      exact h.setOut_of_onlyMakes (seat.keepsTime_answer hping now) _
  | initiate => exact h.setOut_of_onlyMakes seat.keepsTime_initiate _
  | resume index reply =>
    cases hfound : watch.tasks[index]? with
    | none =>
      simp only [Watch.handle, hfound]
      exact ⟨h, rfl⟩
    | some task =>
      have htask : (goOn seat reply task).OnlyMakes KeepsTime :=
        onlyMakes_goOn (h task (List.mem_of_getElem? hfound)) reply
      simp only [Watch.handle, hfound]
      refine ⟨fun other hother => ?_, htask.lastHeartbeat_advance _⟩
      rcases List.mem_or_eq_of_mem_set hother with hold | rfl
      · exact h other hold
      · exact htask.advance _

theorem play_append (seat : Seat) (timeout : UInt64) (watch : Watch) (earlier later : List Event) :
    watch.play seat timeout (earlier ++ later) =
      (watch.play seat timeout earlier).play seat timeout later := List.foldl_append

theorem play_append_singleton (seat : Seat) (timeout : UInt64) (watch : Watch)
    (events : List Event) (event : Event) : watch.play seat timeout (events ++ [event]) =
      ((watch.play seat timeout events).handle seat timeout event).1 :=
  watch.play_append seat timeout events [event]

def Event.time? : Event → Option Int
  | .poll now | .request _ now => some now
  | .initiate | .resume .. => none

def Event.ping? : Event → Option Int
  | .request .ping now => some now
  | _ => none

/-- The clock never runs backwards, from the start of the broker on. -/
def IsClocked (start : Int) (events : List Event) : Prop :=
  (start :: events.filterMap Event.time?).Pairwise (· ≤ ·)

/-- The times of the pings and of the polls that start an election. -/
def renewals (seat : Seat) (timeout : UInt64) : Watch → List Event → List Int
  | _, [] => []
  | watch, event :: rest =>
    (watch.renewal? seat timeout event).toList ++
      renewals seat timeout (watch.handle seat timeout event).1 rest

/-- The latest of the start, the last ping and the last poll that started an election. -/
def latest (seat : Seat) (timeout : UInt64) (start : Int) (events : List Event) : Int :=
  (start :: renewals seat timeout (fresh start) events).max (List.cons_ne_nil _ _)

variable {start : Int} {events earlier later : List Event}

theorem renewals_append (seat : Seat) (timeout : UInt64) (watch : Watch)
    (earlier later : List Event) :
    renewals seat timeout watch (earlier ++ later) =
      renewals seat timeout watch earlier ++
        renewals seat timeout (watch.play seat timeout earlier) later := by
  induction earlier generalizing watch with
  | nil => rfl
  | cons event rest ih => exact (congrArg _ (ih _)).trans (List.append_assoc _ _ _).symm

theorem time?_of_renewal? {event : Event} {time : Int}
    (h : watch.renewal? seat timeout event = some time) : event.time? = some time := by
  unfold renewal? at h
  split at h
  · split at h
    · exact h
    · cases h
  · exact h
  · cases h

theorem renewal?_of_ping? {event : Event} {time : Int} (h : event.ping? = some time) :
    watch.renewal? seat timeout event = some time := by
  unfold Event.ping? at h
  split at h
  · exact h
  · cases h

theorem renewals_subset_times (watch : Watch) (events : List Event) :
    renewals seat timeout watch events ⊆ events.filterMap Event.time? := by
  induction events generalizing watch with
  | nil => exact List.Subset.refl _
  | cons event rest ih =>
    intro time htime
    rw [List.mem_filterMap]
    rcases List.mem_append.1 htime with hfirst | hrest
    · exact ⟨event, List.mem_cons_self, time?_of_renewal? (Option.mem_toList.1 hfirst)⟩
    · obtain ⟨other, hother, htime⟩ := List.mem_filterMap.1 (ih _ hrest)
      exact ⟨other, List.mem_cons_of_mem _ hother, htime⟩

theorem pings_subset_renewals (watch : Watch) (events : List Event) :
    events.filterMap Event.ping? ⊆ renewals seat timeout watch events := by
  induction events generalizing watch with
  | nil => exact List.Subset.refl _
  | cons event rest ih =>
    intro time htime
    obtain ⟨other, hother, hping⟩ := List.mem_filterMap.1 htime
    rcases List.mem_cons.1 hother with rfl | hrest
    · exact List.mem_append_left _ (Option.mem_toList.2 (renewal?_of_ping? hping))
    · exact List.mem_append_right _ (ih _ (List.mem_filterMap.2 ⟨other, hrest, hping⟩))

theorem pings_subset_times (events : List Event) :
    events.filterMap Event.ping? ⊆ events.filterMap Event.time? := by
  intro time htime
  obtain ⟨event, hevent, hping⟩ := List.mem_filterMap.1 htime
  refine List.mem_filterMap.2 ⟨event, hevent, ?_⟩
  unfold Event.ping? at hping
  split at hping
  · exact hping
  · cases hping

theorem IsClocked.of_append (h : IsClocked start (earlier ++ later)) : IsClocked start earlier := by
  rw [IsClocked, List.filterMap_append, ← List.cons_append] at h
  exact (List.pairwise_append.1 h).1

/-- Whatever came earlier, and the start, does not come after what came later. -/
theorem IsClocked.le_time (h : IsClocked start (earlier ++ later)) {time : Int}
    (htime : time ∈ later.filterMap Event.time?) :
    ∀ before ∈ start :: earlier.filterMap Event.time?, before ≤ time := by
  rw [IsClocked, List.filterMap_append, ← List.cons_append] at h
  exact fun before hbefore => (List.pairwise_append.1 h).2.2 before hbefore time htime

/-- Nothing that is ever under way touches the time of the last heartbeat. -/
theorem isSound_play (seat : Seat) (timeout : UInt64) (start : Int) (events : List Event) :
    ((fresh start).play seat timeout events).IsSound := by
  induction events using List.reverseRecOn with
  | nil => exact nofun
  | append_singleton events event ih =>
    rw [play_append_singleton]
    exact (ih.handle seat timeout event).1

theorem eq_latest_iff {time : Int} : time = latest seat timeout start events ↔
    time ∈ start :: renewals seat timeout (fresh start) events ∧
      ∀ other ∈ start :: renewals seat timeout (fresh start) events, other ≤ time :=
  eq_comm.trans (List.max_eq_iff _)

/-- **A whole run.** If the clock never runs backwards then the time of the last heartbeat is the
latest of the start, the last ping and the last poll that started an election. -/
theorem lastHeartbeat_play (seat : Seat) (timeout : UInt64) (h : IsClocked start events) :
    ((fresh start).play seat timeout events).status.lastHeartbeat =
      latest seat timeout start events := by
  induction events using List.reverseRecOn with
  | nil => rfl
  -- The run grows at its end, so that nothing in it is later than the last event.
  | append_singleton events event ih =>
    have hstep := ((isSound_play seat timeout start events).handle seat timeout event).2
    have hrenewals : renewals seat timeout (fresh start) (events ++ [event]) =
        renewals seat timeout (fresh start) events ++
          (((fresh start).play seat timeout events).renewal? seat timeout event).toList :=
      (renewals_append seat timeout _ events [event]).trans (congrArg _ (List.append_nil _))
    rw [eq_latest_iff, hrenewals, play_append_singleton, hstep]
    cases hrenewal : ((fresh start).play seat timeout events).renewal? seat timeout event with
    | none =>
      rw [Option.toList_none, List.append_nil, ← eq_latest_iff]
      exact ih h.of_append
    | some time =>
      have htime : time ∈ [event].filterMap Event.time? :=
        List.mem_filterMap.2 ⟨event, List.mem_singleton_self _, time?_of_renewal? hrenewal⟩
      rw [Option.getD_some, Option.toList_some, ← List.cons_append]
      refine ⟨List.mem_append_right _ (List.mem_singleton_self _), fun other hother => ?_⟩
      rcases List.mem_append.1 hother with hold | hnew
      · exact h.le_time htime other (List.cons_subset_cons _ (renewals_subset_times _ _) hold)
      · exact Int.le_of_eq (List.mem_singleton.1 hnew)

theorem start_le_latest (seat : Seat) (timeout : UInt64) (start : Int) (events : List Event) :
    start ≤ latest seat timeout start events := List.le_max_of_mem List.mem_cons_self

theorem le_latest {time : Int} (h : time ∈ renewals seat timeout (fresh start) events) :
    time ≤ latest seat timeout start events := List.le_max_of_mem (List.mem_cons_of_mem _ h)

/-- Whether a poll at time `now` starts an election, if all this happened before. -/
def startsAfter (seat : Seat) (timeout : UInt64) (start : Int) (before : List Event) (now : Int) :
    Bool :=
  ((fresh start).play seat timeout before).starts seat timeout now

/-- The time of the last heartbeat is known from the events, so the poll's decision is too. -/
theorem startsAfter_iff (h : IsClocked start events) (now : Int) :
    startsAfter seat timeout start events now ↔
      ((fresh start).play seat timeout events).status.role ≠ .leader ∧
        timeout.toNat < now - latest seat timeout start events := by
  rw [startsAfter, starts_eq, Status.isExpired_iff, lastHeartbeat_play seat timeout h]

/-- What has happened last is a ping at that time, or else the start. -/
def HeardLast (start : Int) (before : List Event) (time : Int) : Prop :=
  before.getLast? = some (.request .ping time) ∨ before = [] ∧ time = start

theorem HeardLast.le_latest {before : List Event} {time : Int} (h : HeardLast start before time)
    (later : List Event) : time ≤ latest seat timeout start (before ++ later) := by
  rcases h with hping | ⟨-, rfl⟩
  · have hmem : time ∈ (before ++ later).filterMap Event.ping? :=
      List.mem_filterMap.2 ⟨_, List.mem_append_left _ (List.mem_of_getLast? hping), rfl⟩
    exact Watch.le_latest (pings_subset_renewals _ _ hmem)
  · exact start_le_latest seat timeout time _

/-- A poll that starts an election counts for all that follow. -/
theorem le_latest_of_startsAfter {before : List Event} {time : Int}
    (h : startsAfter seat timeout start before time) (later : List Event) :
    time ≤ latest seat timeout start (before ++ .poll time :: later) := by
  refine le_latest ?_
  rw [renewals_append]
  have hrenewal : ((fresh start).play seat timeout before).renewal? seat timeout (.poll time) =
      some time := if_pos h
  exact List.mem_append_right _ (List.mem_append_left _ (by rw [hrenewal]; exact List.mem_cons_self))

/-- Each ping comes within the timeout after the one before it. -/
def KeepUp (timeout : UInt64) (pings : List Int) : Prop :=
  pings.IsChain fun ping next : Int => next - ping ≤ timeout.toNat

/-- What is pinged after a poll is pinged no earlier than the time of the poll. -/
theorem IsClocked.le_ping {after : List Event} {now next ping : Int}
    (h : IsClocked start (earlier ++ .poll now :: later ++ .request .ping next :: after))
    (hping : ping ∈ later.filterMap Event.ping? ++ [next]) : now ≤ ping := by
  have hevents : earlier ++ .poll now :: later ++ .request .ping next :: after =
      (earlier ++ [.poll now]) ++ (later ++ .request .ping next :: after) := by simp
  rw [hevents] at h
  refine h.le_time ?_ now (by simp [Event.time?])
  rw [List.filterMap_append]
  rcases List.mem_append.1 hping with hlater | hnext
  · exact List.mem_append_left _ (pings_subset_times later hlater)
  · rw [List.mem_singleton.1 hnext]
    exact List.mem_append_right _ List.mem_cons_self

/-- No poll between two pings, or the start and a ping, starts an election if the pings keep up. -/
theorem not_startsAfter_of_keepUp {before after : List Event} {since now next : Int}
    (hclock : IsClocked start
      (before ++ (earlier ++ .poll now :: later) ++ .request .ping next :: after))
    (hsince : HeardLast start before since)
    (hkeep : KeepUp timeout (since :: (earlier ++ .poll now :: later).filterMap Event.ping? ++ [next])) :
    ¬ startsAfter seat timeout start (before ++ earlier) now := by
  rw [← List.append_assoc] at hclock
  have hpings : since :: (earlier ++ .poll now :: later).filterMap Event.ping? ++ [next] =
      (since :: earlier.filterMap Event.ping?) ++ (later.filterMap Event.ping? ++ [next]) := by
    simp [List.filterMap_append, List.filterMap_cons, Event.ping?]
  rw [hpings, KeepUp, List.isChain_append] at hkeep
  -- The poll comes between the last ping before it and the first after it.
  obtain ⟨last, hlast⟩ : ∃ last, last ∈ (since :: earlier.filterMap Event.ping?).getLast? :=
    ⟨_, List.getLast?_eq_some_getLast (List.cons_ne_nil _ _)⟩
  obtain ⟨first, hfirst⟩ : ∃ first, first ∈ (later.filterMap Event.ping? ++ [next]).head? :=
    ⟨_, List.head?_eq_some_head (List.append_ne_nil_of_right_ne_nil _ (List.cons_ne_nil _ _))⟩
  have hgap := hkeep.2.2 last hlast first hfirst
  have hnow := hclock.le_ping (List.mem_of_head? hfirst)
  have hlatest : last ≤ latest seat timeout start (before ++ earlier) := by
    rcases List.mem_cons.1 (List.mem_of_getLast? hlast) with rfl | hping
    · exact hsince.le_latest earlier
    · refine le_latest (pings_subset_renewals _ _ ?_)
      rw [List.filterMap_append]
      exact List.mem_append_right _ hping
  rw [startsAfter_iff hclock.of_append.of_append]
  omega

/-- **Pacing.** Take a broker with a clock that never runs backwards, and whatever it does and is
asked, at once or while other things are under way. A poll starts an election exactly when the
broker does not lead and more than the timeout has passed since the latest of the start, the last
ping and the last poll that started one, and that is what the poll says in the end, carried out
without a break or with other things in between. So two polls that start elections are more than
the timeout apart, and none starts one while pings keep up. -/
theorem startsAfter_paced (seat : Seat) (timeout : UInt64) (start : Int) (events : List Event)
    (hclock : IsClocked start events) :
    (∀ before now, let status := ((fresh start).play seat timeout before).status
      ((seat.poll timeout now).advance status).2.EndsWith
        (startsAfter seat timeout start before now) ∧
      ∀ replies conduct, conduct.status = status →
        (((seat.poll timeout now).run (Conduct.interpreter replies)).run conduct).1 =
          startsAfter seat timeout start before now) ∧
    (∀ before now after, events = before ++ .poll now :: after →
      (startsAfter seat timeout start before now ↔
        ((fresh start).play seat timeout before).status.role ≠ .leader ∧
          timeout.toNat < now - latest seat timeout start before)) ∧
    (∀ before first between second after,
      events = before ++ .poll first :: between ++ .poll second :: after →
      startsAfter seat timeout start before first →
      startsAfter seat timeout start (before ++ .poll first :: between) second →
      timeout.toNat < second - first) ∧
    (∀ before since during next after, events = before ++ during ++ .request .ping next :: after →
      HeardLast start before since →
      KeepUp timeout (since :: during.filterMap Event.ping? ++ [next]) →
      ∀ earlier now later, during = earlier ++ .poll now :: later →
        ¬ startsAfter seat timeout start (before ++ earlier) now) := by
  refine ⟨?answer, ?exact, ?apart, ?quiet⟩
  case answer =>
    intro before now
    rw [startsAfter, starts_eq]
    refine ⟨seat.endsWith_poll timeout now _, fun replies conduct hstatus => ?_⟩
    rw [run_poll, hstatus]
  case exact =>
    rintro before now after rfl
    exact startsAfter_iff hclock.of_append now
  case apart =>
    rintro before first between second after rfl hfirst hsecond
    have hlatest := le_latest_of_startsAfter hfirst between
    have hpassed := ((startsAfter_iff hclock.of_append second).1 hsecond).2
    omega
  case quiet =>
    rintro before since during next after rfl hsince hkeep earlier now later rfl
    exact not_startsAfter_of_keepUp hclock hsince hkeep

/-- A broker whose only peer never answers. -/
def unanswered : Seat := { id := 1, mode := .raft, peers := [⟨2, "b", 8002⟩], registration := none }

/-- Two elections, the first of which has failed before the second starts, and then pings. -/
def inVain : List Event :=
  [.poll 10, .poll 11, .resume 1 none, .poll 21, .poll 22, .request .ping 25, .poll 30,
    .request .ping 35]

/-- Two elections that fail, one after the other, and then pings that prevent a third. -/
theorem inVain_paced : IsClocked 0 inVain ∧ ¬ startsAfter unanswered 10 0 (inVain.take 0) 10 ∧
    startsAfter unanswered 10 0 (inVain.take 1) 11 ∧
    ¬ startsAfter unanswered 10 0 (inVain.take 3) 21 ∧
    startsAfter unanswered 10 0 (inVain.take 4) 22 ∧ (10 : Int) < 22 - 11 ∧
    ¬ startsAfter unanswered 10 0 (inVain.take 6) 30 := by
  have hclock : IsClocked 0 inVain := by
    unfold IsClocked
    decide
  obtain ⟨-, hexact, hapart, hquiet⟩ := startsAfter_paced unanswered 10 0 inVain hclock
  have hfirst : startsAfter unanswered 10 0 (inVain.take 1) 11 :=
    (hexact (inVain.take 1) 11 (inVain.drop 2) rfl).2 (by decide)
  have hsecond : startsAfter unanswered 10 0 (inVain.take 4) 22 :=
    (hexact (inVain.take 4) 22 (inVain.drop 5) rfl).2 (by decide)
  refine ⟨hclock, ?_, hfirst, ?_, hsecond, ?_, ?_⟩
  · exact fun h => absurd ((hexact [] 10 (inVain.drop 1) rfl).1 h) (by decide)
  · exact fun h => absurd ((hexact (inVain.take 3) 21 (inVain.drop 4) rfl).1 h) (by decide)
  · exact hapart (inVain.take 1) 11 [.resume 1 none, .poll 21] 22 (inVain.drop 5) rfl hfirst hsecond
  · exact hquiet (inVain.take 6) 25 [.poll 30] 35 [] rfl (.inl rfl)
      (by unfold KeepUp; decide) [] 30 [] rfl

end Watch

end BrokerCluster.Election
