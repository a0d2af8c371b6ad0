import BrokerCluster.Proofs.Election.Outcomes
import BrokerCluster.Proofs.Election.Ring

/-!
# Elections in `ring` mode

An election has three parts. A candidate goes around until it meets the highest
broker that is up. The highest id then goes around once, and makes followers of all
others. At last the announcement goes around, each broker passing it on before it
acknowledges it.
-/
namespace BrokerCluster.Election

theorem max_eq_ite (a b : BrokerId) : max a b = if a ≤ b then b else a := rfl

/-- The changes that a candidate brings about at a broker. -/
def ringChanges (candidate id : BrokerId) : List Change :=
  if candidate = id then [.leader nobody, .role .leader, .leader id]
  else [.leader nobody, .role (if max candidate id = candidate then .follower else .candidate)]

/-- What a candidate leaves a broker to do. -/
def ringFollowUp (candidate id : BrokerId) : FollowUp :=
  if candidate = id then .declareLeadership else .forward (max candidate id)

theorem Seat.answer_electLine {seat : Seat} (hmode : seat.mode = .ring) (now : Int)
    (candidate : BrokerId) :
    seat.answer now (.ofLine (electLine candidate)) =
      Change.before (ringChanges candidate seat.id)
        (.done { reply := some acceptReply, followUp := some (ringFollowUp candidate seat.id) }) := by
  simp only [ofLine_electLine, Seat.answer, Seat.respond, hmode, ringChanges, ringFollowUp]
  split <;> rfl

theorem Seat.answer_declareLine {seat : Seat} (hmode : seat.mode = .ring) (now : Int)
    (leader : BrokerId) (hne : leader ≠ seat.id) :
    seat.answer now (.ofLine (declareLine leader)) =
      (askUntil Action.askPeer (declareLine leader) "ack" seat.peers).bind fun _ =>
        Change.before [.leader leader] (.done { reply := some (ackReply seat.id) }) := by
  simp only [ofLine_declareLine, Seat.answer, Seat.acknowledge, hmode, if_neg hne]
  refine (Action.bind_assoc _ _ _).trans ?_
  exact Action.bind_assoc (askUntil Action.askPeer (declareLine leader) "ack" seat.peers) _ _

theorem Seat.answer_ownDeclareLine {seat : Seat} (hmode : seat.mode = .ring) (now : Int) :
    seat.answer now (.ofLine (declareLine seat.id)) =
      Change.before [.leader seat.id] (.done { reply := some (ackReply seat.id) }) := by
  simp only [ofLine_declareLine, Seat.answer, Seat.acknowledge, hmode, if_pos]
  rfl

/-- A request that put a candidate forward and was accepted. -/
def Contact.IsAcceptedElect (contact : Contact) : Prop :=
  (∃ candidate, contact.request = electLine candidate) ∧ contact.reply = some acceptReply

/-- A request that announced a leader and was acknowledged. -/
def Contact.IsAcceptedDeclare (contact : Contact) : Prop :=
  (∃ leader, contact.request = declareLine leader) ∧
    contact.reply = some (ackReply contact.receiver)

namespace Cluster

variable {roster : Roster} {ring : List BrokerId} {now : Int} {before between after : Cluster}

/-- A broker asks until it comes to the next one that is up. -/
theorem Performs.askNext (hring : roster.IsRing ring) (hroster : before.roster = roster)
    {owner : Seat} (howner : (owner, true) ∈ roster) {next : BrokerId}
    (hnext : roster.Precedes owner.id next) {line expected : String} {answer : Answer}
    {nested : List Contact}
    (hanswer : ∀ receiver, (receiver, true) ∈ roster → receiver.id = next →
      Performs now next (receiver.answer now (.ofLine line))
        { before with log := before.log ++ [⟨owner.id, next, line, none⟩] } answer between)
    (hlog : between.log = before.log ++ ⟨owner.id, next, line, none⟩ :: nested)
    (hexpected : isExpected expected answer.reply = true) :
    Performs now owner.id (Election.askUntil Action.askPeer line expected owner.peers) before true
      { between with
        waiting := between.waiting ++ answer.followUp.toList.map (next, ·)
        log := before.log ++ ⟨owner.id, next, line, answer.reply⟩ :: nested } := by
  subst hroster
  obtain ⟨hup, hfirst⟩ := hnext
  obtain ⟨down, peer, rest, hpeers, hdown, rfl⟩ := hfirst owner howner rfl
  obtain ⟨member, hmember, hseat, hid⟩ := Brokers.exists_filter_isUp hring.nodup hup
  rw [hpeers]
  refine askUntil (fun other hother => ?_) hmember (hanswer _ hseat hid) hlog hexpected
  cases hfound : (before.member? other.id).filter (·.isUp) with
  | none => rfl
  | some found =>
    obtain ⟨hmem, hid⟩ := Brokers.isUp_of_filter_eq_some hfound
    exact absurd ⟨_, hmem, hid⟩ (hdown other hother)

/-- The cluster after a candidate came to the next broker. -/
def afterElect (cluster : Cluster) (sender receiver candidate : BrokerId) : Cluster where
  toBrokers := cluster.toBrokers.changeAll receiver (ringChanges candidate receiver)
  waiting := [(receiver, ringFollowUp candidate receiver)]
  log := cluster.log ++ [⟨sender, receiver, electLine candidate, some acceptReply⟩]

/-- Peers that are down are passed over without leaving anything in the log. -/
theorem performs_forward (hring : roster.IsRing ring) (hroster : before.roster = roster)
    (hwaiting : before.waiting = []) {owner : Seat} (howner : (owner, true) ∈ roster)
    {next : BrokerId} (hnext : roster.Precedes owner.id next) (candidate : BrokerId) :
    Performs now owner.id (owner.forward candidate) before ()
      (before.afterElect owner.id next candidate) := by
  have hanswer : ∀ receiver, (receiver, true) ∈ roster → receiver.id = next →
      Performs now next (receiver.answer now (.ofLine (electLine candidate)))
        { before with log := before.log ++ [⟨owner.id, next, electLine candidate, none⟩] }
        { reply := some acceptReply, followUp := some (ringFollowUp candidate next) }
        { before with
          toBrokers := before.toBrokers.changeAll next (ringChanges candidate next)
          log := before.log ++ [⟨owner.id, next, electLine candidate, none⟩] } := by
    rintro receiver hreceiver rfl
    rw [Seat.answer_electLine (hring.mode_eq _ hreceiver)]
    exact Performs.changes (hroster ▸ hring.nodup) (hroster ▸ hnext.1) (Performs.done _ _)
  refine Performs.bind (Performs.askNext hring hroster howner hnext hanswer rfl (by simp)) ?_
  have hafter : before.afterElect owner.id next candidate =
      { before with
        toBrokers := before.toBrokers.changeAll next (ringChanges candidate next)
        waiting := before.waiting ++ [(next, ringFollowUp candidate next)]
        log := before.log ++ [⟨owner.id, next, electLine candidate, some acceptReply⟩] } := by
    rw [hwaiting]
    rfl
  rw [hafter]
  exact Performs.done _ _

/-- What is left to do comes to `reached` by a number of accepted requests. -/
structure Advances (now : Int) (count : Nat) (cluster reached : Cluster) : Prop where
  roster_eq : reached.roster = cluster.roster
  names_eq : reached.names = cluster.names
  log : ∃ elects, reached.log = cluster.log ++ elects ∧ elects.length = count ∧
    ∀ contact ∈ elects, contact.IsAcceptedElect
  finishes : ∀ after, Finishes now reached after → Finishes now cluster after

theorem Advances.refl (cluster : Cluster) : Advances now 0 cluster cluster :=
  ⟨rfl, rfl, ⟨[], by simp⟩, fun _ h => h⟩

theorem Advances.trans {first second : Nat} (hfirst : Advances now first before between)
    (hsecond : Advances now second between after) : Advances now (first + second) before after := by
  obtain ⟨elects, hlog, hlength, haccepted⟩ := hfirst.log
  obtain ⟨later, hlaterLog, hlaterLength, hlaterAccepted⟩ := hsecond.log
  refine ⟨hsecond.roster_eq.trans hfirst.roster_eq, hsecond.names_eq.trans hfirst.names_eq,
    ⟨elects ++ later, ?_, ?_, ?_⟩, fun last hlast => hfirst.finishes last (hsecond.finishes last hlast)⟩
  · rw [hlaterLog, hlog, List.append_assoc]
  · rw [List.length_append, hlength, hlaterLength]
  · intro contact hcontact
    rcases List.mem_append.1 hcontact with h | h
    · exact haccepted contact h
    · exact hlaterAccepted contact h

/-- A candidate that has yet to be put forward comes to the next broker by one accepted request. -/
theorem advances_afterElect (now : Int) (hring : roster.IsRing ring)
    (hroster : before.roster = roster) {id next candidate : BrokerId} (hid : roster.IsUp id)
    (hnext : roster.Precedes id next)
    (hwaiting : before.waiting = [(id, .forward candidate)]) :
    Advances now 1 before (before.afterElect id next candidate) := by
  subst hroster
  obtain ⟨owner, howner, rfl⟩ := hid
  obtain ⟨member, hmember, hseat, -⟩ := Brokers.member?_of_mem_roster hring.nodup howner
  refine ⟨Brokers.roster_changeAll .., Brokers.names_changeAll .., ⟨_, rfl, rfl, ?_⟩,
    fun last hlast => ?_⟩
  · intro contact hcontact
    rw [List.mem_singleton.1 hcontact]
    exact ⟨⟨candidate, rfl⟩, rfl⟩
  · have hforward : Performs now owner.id (member.seat.complete (.forward candidate))
        { before with waiting := [] } ()
        (afterElect { before with waiting := [] } owner.id next candidate) := by
      rw [hseat]
      exact @performs_forward before.roster ring now { before with waiting := [] } hring rfl rfl
        owner howner next hnext candidate
    exact (finishes_cons_iff hwaiting hmember hforward).2 hlast

/-- A candidate below `top` comes to `top`, which puts itself forward instead. -/
theorem exists_advances_top (now : Int) (hring : roster.IsRing ring)
    (hroster : before.roster = roster) {top id candidate : BrokerId} {path : List BrokerId}
    (hid : roster.IsUp id)
    (hchain : List.IsChain roster.Precedes (id :: path ++ [top]))
    (hwaiting : before.waiting = [(id, .forward candidate)]) (hlt : candidate < top)
    (hpath : ∀ other ∈ path, other < top) (hnodup : (candidate :: path).Nodup) :
    ∃ reached, Advances now (path.length + 1) before reached ∧
      reached.waiting = [(top, .forward top)] := by
  -- Along the path the candidate is no id of the brokers ahead, so none of them mistakes it for its
  -- own before it comes to `top`.
  induction path generalizing before id candidate with
  | nil =>
    have hnext : roster.Precedes id top := List.isChain_pair.1 hchain
    refine ⟨_, advances_afterElect now hring hroster hid hnext hwaiting, ?_⟩
    rw [afterElect, ringFollowUp, if_neg (Int64.ne_of_lt hlt), max_eq_ite,
      if_pos (Int64.le_of_lt hlt)]
  | cons next path ih =>
    obtain ⟨hnext, hrest⟩ := List.isChain_cons_cons.1 hchain
    obtain ⟨hcandidate, hnodup⟩ := List.nodup_cons.1 hnodup
    have hne : candidate ≠ next := fun heq => hcandidate (heq ▸ List.mem_cons_self)
    have hstep := advances_afterElect now hring hroster hid hnext hwaiting
    have hwaiting' : (before.afterElect id next candidate).waiting =
        [(next, .forward (max candidate next))] := by
      rw [afterElect, ringFollowUp, if_neg hne]
    have hmax : max candidate next < top := by
      rw [max_eq_ite]
      split
      · exact hpath next List.mem_cons_self
      · exact hlt
    have hfresh : (max candidate next :: path).Nodup := by
      rw [max_eq_ite]
      split
      · exact hnodup
      · exact List.nodup_cons.2 ⟨fun hmem => hcandidate (List.mem_cons_of_mem _ hmem),
          (List.nodup_cons.1 hnodup).2⟩
    obtain ⟨reached, hreached, hend⟩ := ih (hstep.roster_eq.trans hroster) hnext.1 hrest hwaiting'
      hmax (fun other hother => hpath other (List.mem_cons_of_mem _ hother)) hfresh
    refine ⟨reached, ?_, hend⟩
    rw [List.length_cons, Nat.add_comm]
    exact hstep.trans hreached

/-- The highest id makes a follower of every broker but its own, which it makes the leader. -/
theorem isSettled_ringChanges {brokers : Brokers} {top next other : BrokerId} (hle : next ≤ top)
    (h : brokers.IsSettled top other .role ∨ other = next) :
    (brokers.changeAll next (ringChanges top next)).IsSettled top other .role := by
  have hright : ∃ role, (Change.role role).IsRight top next ∧ .role role ∈ ringChanges top next ∧
      ∀ change ∈ ringChanges top next, .role = change.matter → change = .role role := by
    by_cases heq : top = next
    · refine ⟨.leader, (if_pos heq.symm).symm, ?_, ?_⟩ <;>
        simp [ringChanges, heq, Change.matter]
    · have hmax : max top next = top := by
        rw [max_eq_ite, if_neg fun hge => heq (Int64.le_antisymm hge hle)]
      refine ⟨.follower, (if_neg (Ne.symm heq)).symm, ?_, ?_⟩ <;>
        simp [ringChanges, heq, hmax, Change.matter]
  obtain ⟨role, hrole, hmem, honly⟩ := hright
  refine Brokers.isSettled_changeAll (fun _ change hchange hmatter => ?_) ?_
  · rw [honly change hchange hmatter]
    exact hrole
  · exact h.imp_right fun heq => ⟨heq, _, hmem, rfl⟩

/-- The highest id goes around until it is back, and the roles are settled where it was. -/
theorem exists_advances_leader (now : Int) (hring : roster.IsRing ring)
    (hroster : before.roster = roster) {top id : BrokerId} {path : List BrokerId}
    (hid : roster.IsUp id)
    (hchain : List.IsChain roster.Precedes (id :: path ++ [top]))
    (hwaiting : before.waiting = [(id, .forward top)]) (hpath : ∀ other ∈ path, other < top) :
    ∃ reached, Advances now (path.length + 1) before reached ∧
      reached.waiting = [(top, .declareLeadership)] ∧
      ∀ other, before.IsSettled top other .role ∨ other ∈ path ++ [top] →
        reached.IsSettled top other .role := by
  induction path generalizing before id with
  | nil =>
    have hnext : roster.Precedes id top := List.isChain_pair.1 hchain
    refine ⟨_, advances_afterElect now hring hroster hid hnext hwaiting, ?_, fun other hother => ?_⟩
    · rw [afterElect, ringFollowUp, if_pos rfl]
    · exact isSettled_ringChanges (Int64.le_refl _) (by simpa using hother)
  | cons next path ih =>
    obtain ⟨hnext, hrest⟩ := List.isChain_cons_cons.1 hchain
    have hlt : next < top := hpath next List.mem_cons_self
    have hstep := advances_afterElect now hring hroster hid hnext hwaiting
    have hwaiting' : (before.afterElect id next top).waiting = [(next, .forward top)] := by
      rw [afterElect, ringFollowUp, if_neg (Int64.ne_of_lt hlt).symm, max_eq_ite,
        if_neg (Int64.not_le.2 hlt)]
    obtain ⟨reached, hreached, hend, hsettled⟩ := ih (hstep.roster_eq.trans hroster) hnext.1 hrest
      hwaiting' fun other hother => hpath other (List.mem_cons_of_mem _ hother)
    refine ⟨reached, ?_, hend, fun other hother => hsettled other ?_⟩
    · rw [List.length_cons, Nat.add_comm]
      exact hstep.trans hreached
    · rw [List.cons_append, List.mem_cons, ← or_assoc] at hother
      exact hother.imp_left fun h => isSettled_ringChanges (Int64.le_of_lt hlt) h

/-- An announcement made a number of accepted requests and brought brokers to follow `top`. -/
structure Announces (top : BrokerId) (count : Nat) (ids : List BrokerId) (before after : Cluster) :
    Prop where
  roster_eq : after.roster = before.roster
  waiting_eq : after.waiting = before.waiting
  log : ∃ declares, after.log = before.log ++ declares ∧ declares.length = count ∧
    ∀ contact ∈ declares, contact.IsAcceptedDeclare
  settled : ∀ id matter, before.IsSettled top id matter ∨ (matter = .leader ∧ id ∈ ids) →
    after.IsSettled top id matter

theorem Announces.change {top : BrokerId} {count : Nat} {ids : List BrokerId}
    (h : Announces top count ids before after) (id : BrokerId) :
    Announces top count (id :: ids) before
      { after with toBrokers := after.toBrokers.changeAll id [.leader top] } := by
  refine ⟨(Brokers.roster_changeAll ..).trans h.roster_eq, h.waiting_eq, h.log,
    fun other matter hother => ?_⟩
  refine Brokers.isSettled_changeAll (fun _ change hchange _ => ?_) ?_
  · rw [List.mem_singleton.1 hchange]
    rfl
  · by_cases hown : matter = .leader ∧ other = id
    · exact .inr ⟨hown.2, _, List.mem_singleton_self _, hown.1⟩
    · refine .inl (h.settled other matter (hother.imp_right fun ⟨hmatter, hmem⟩ => ⟨hmatter, ?_⟩))
      exact (List.mem_cons.1 hmem).resolve_left fun heq => hown ⟨hmatter, heq⟩

/-- Wherever the cluster stands, a broker acknowledges the announcement and others with it. -/
def Acknowledges (roster : Roster) (now : Int) (top id : BrokerId) (count : Nat)
    (ids : List BrokerId) : Prop :=
  ∀ before : Cluster, before.roster = roster → ∃ after, Announces top count ids before after ∧
    after.names = before.names ∧ ∀ receiver, (receiver, true) ∈ roster → receiver.id = id →
      Performs now id (receiver.answer now (.ofLine (declareLine top))) before
        { reply := some (ackReply id) } after

theorem acknowledges_top (hring : roster.IsRing ring) (top : BrokerId) :
    Acknowledges roster now top top 0 [top] := by
  intro before hroster
  have hnothing : Announces top 0 [] before before :=
    ⟨rfl, rfl, ⟨[], by simp⟩, fun id matter h => h.resolve_right (by simp)⟩
  refine ⟨_, hnothing.change top, Brokers.names_changeAll .., ?_⟩
  rintro receiver hreceiver rfl
  rw [Seat.answer_ownDeclareLine (hring.mode_eq _ hreceiver)]
  exact Performs.changes (hroster ▸ hring.nodup) (hroster ▸ ⟨receiver, hreceiver, rfl⟩)
    (Performs.done _ _)

/-- A broker that asks the next one is acknowledged. -/
theorem Acknowledges.ask (hring : roster.IsRing ring) {top next : BrokerId} {count : Nat}
    {ids : List BrokerId} (h : Acknowledges roster now top next count ids)
    (hroster : before.roster = roster) {owner : Seat} (howner : (owner, true) ∈ roster)
    (hnext : roster.Precedes owner.id next) :
    ∃ after, Announces top (count + 1) ids before after ∧
      Performs now owner.id (askUntil Action.askPeer (declareLine top) "ack" owner.peers) before true
        after ∧ after.names = before.names := by
  obtain ⟨between, hbetween, hnames, hanswer⟩ := h
    { before with log := before.log ++ [⟨owner.id, next, declareLine top, none⟩] } hroster
  obtain ⟨nested, hlog, hlength, haccepted⟩ := hbetween.log
  have hlog' : between.log = before.log ++ ⟨owner.id, next, declareLine top, none⟩ :: nested := by
    simpa using hlog
  refine ⟨_, ?_, Performs.askNext hring hroster howner hnext hanswer hlog' (by simp), hnames⟩
  refine ⟨hbetween.roster_eq, ?_, ⟨_, rfl, ?_, ?_⟩, hbetween.settled⟩
  · simpa using hbetween.waiting_eq
  · rw [List.length_cons, hlength]
  · intro contact hcontact
    rcases List.mem_cons.1 hcontact with rfl | hcontact
    · exact ⟨⟨top, rfl⟩, rfl⟩
    · exact haccepted contact hcontact

/-- A broker passes the announcement on before it acknowledges it. -/
theorem Acknowledges.pass (hring : roster.IsRing ring) {top id next : BrokerId} {count : Nat}
    {ids : List BrokerId} (h : Acknowledges roster now top next count ids) (hid : roster.IsUp id)
    (hnext : roster.Precedes id next) (hne : id ≠ top) :
    Acknowledges roster now top id (count + 1) (id :: ids) := by
  intro before hroster
  obtain ⟨owner, howner, rfl⟩ := hid
  -- the brokers behind `next` are done before this one takes note of its leader
  obtain ⟨asked, hasked, hask, hnames⟩ := h.ask hring hroster howner hnext
  refine ⟨_, hasked.change owner.id, (Brokers.names_changeAll ..).trans hnames,
    fun receiver hreceiver hid => ?_⟩
  have hsame : receiver = owner :=
    congrArg Prod.fst (Roster.eq_of_id_eq hring.nodup hreceiver howner hid)
  subst hsame
  rw [Seat.answer_declareLine (hring.mode_eq _ hreceiver) now top hne.symm]
  have hroster' : asked.roster = roster := hasked.roster_eq.trans hroster
  exact Performs.bind hask (Performs.changes (hroster' ▸ hring.nodup)
    (hroster' ▸ ⟨receiver, hreceiver, rfl⟩) (Performs.done _ _))

/-- An announcement goes from broker to broker until it is back at its origin, and each acknowledges
it. -/
theorem acknowledges_path (now : Int) (hring : roster.IsRing ring) {top id : BrokerId}
    {path : List BrokerId} (hid : roster.IsUp id)
    (hchain : List.IsChain roster.Precedes (id :: path ++ [top]))
    (hne : top ∉ id :: path) :
    Acknowledges roster now top id (path.length + 1) (id :: path ++ [top]) := by
  induction path generalizing id with
  | nil =>
    have hnext : roster.Precedes id top := List.isChain_pair.1 hchain
    exact (acknowledges_top hring top).pass hring hid hnext fun heq => hne (heq ▸ List.mem_cons_self)
  | cons next path ih =>
    obtain ⟨hnext, hrest⟩ := List.isChain_cons_cons.1 hchain
    have htail : top ∉ next :: path := fun hmem => hne (List.mem_cons_of_mem _ hmem)
    exact (ih hnext.1 hrest htail).pass hring hid hnext fun heq => hne (heq ▸ List.mem_cons_self)

/-- The leader announces itself and then registers its address. -/
theorem Acknowledges.declareLeader (hring : roster.IsRing ring) {top next : BrokerId} {count : Nat}
    {ids : List BrokerId} (h : Acknowledges roster now top next count ids)
    (hroster : before.roster = roster) {owner : Seat} (howner : (owner, true) ∈ roster)
    (htop : owner.id = top) (hnext : roster.Precedes top next) :
    ∃ after, Announces top (count + 1) ids before after ∧
      after.names = (before.registerLeader owner).names ∧
      Performs now top owner.declareLeader before () after := by
  subst htop
  obtain ⟨asked, hasked, hask, hnames⟩ := h.ask hring hroster howner hnext
  have hmode : owner.mode = .ring := hring.mode_eq _ howner
  have hdeclare : owner.declareLeader = (do
      discard <| askUntil Action.askPeer (declareLine owner.id) "ack" owner.peers
      owner.registerDomain) := by
    simp only [Seat.declareLeader, hmode]
  rw [hdeclare]
  refine ⟨{ asked with toBrokers := asked.toBrokers.registerLeader owner }, ?_, ?_,
    Performs.bind (Performs.bind hask (Performs.done () _)) (Performs.registerDomain owner)⟩
  · refine ⟨(Brokers.roster_registerLeader ..).trans hasked.roster_eq, hasked.waiting_eq, hasked.log,
      fun id matter h member hmember => ?_⟩
    rw [Brokers.members_registerLeader] at hmember
    exact hasked.settled id matter h member hmember
  · exact Brokers.names_registerLeader hnames owner

end Cluster

end BrokerCluster.Election
