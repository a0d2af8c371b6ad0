import BrokerCluster.Election.Correspondence

/-!
# Fresh replies

A leader never takes a reply that comes late for one to a later line. It holds at most one link to
a peer, and between two rounds nothing is on its way there: all that it wrote on the link was
answered, and it has read all answers. So what it reads in a round answers what it wrote in that
round. A link on which an answer may still come is closed.

What comes in time is said by the schedule alone: it comes before anything lapses.
-/
namespace BrokerCluster.Election

namespace Note

/-- The open links after what the leader did, given those before it. -/
def links : Note → List Nat → List Nat
  | .opened link, links => links ++ [link]
  | .closed link, links => links.erase link
  | .wrote .., links | .read .., links => links

def opened? : Note → Option Nat
  | .opened link => some link
  | _ => none

def line? : Note → Option Nat
  | .wrote _ line _ => some line
  | _ => none

def link : Note → Nat
  | .opened link | .wrote link _ _ | .read link _ | .closed link => link

end Note

def openLinks (notes : List Note) : List Nat := notes.foldl (fun links note => note.links links) []

theorem openLinks_concat (notes : List Note) (note : Note) :
    openLinks (notes ++ [note]) = note.links (openLinks notes) := by
  rw [openLinks, List.foldl_append]
  rfl

/-- At no time was more than one link open, and each link and each line has a number of its own.
Now the only open link is the given one. -/
structure IsBook (link : Option Nat) (links lines : Nat) (notes : List Note) : Prop where
  atMostOne : ∀ past, past <+: notes → (openLinks past).length ≤ 1
  current : openLinks notes = link.toList
  linkNumbers : notes.filterMap Note.opened? = List.range links
  lineNumbers : notes.filterMap Note.line? = List.range lines

namespace IsBook

variable {link after : Option Nat} {links lines newLinks newLines : Nat} {notes : List Note}

theorem nil : IsBook none 0 0 [] where
  atMostOne past hpast := by rw [List.prefix_nil.1 hpast]; exact Nat.zero_le 1
  current := rfl
  linkNumbers := rfl
  lineNumbers := rfl

/-- A book goes on with what the leader does next, if it gives the next numbers to what is new. -/
theorem concat (h : IsBook link links lines notes) {note : Note}
    (hcurrent : note.links link.toList = after.toList)
    (hlinks : List.range links ++ note.opened?.toList = List.range newLinks)
    (hlines : List.range lines ++ note.line?.toList = List.range newLines) :
    IsBook after newLinks newLines (notes ++ [note]) := by
  have hopen : openLinks (notes ++ [note]) = after.toList := by
    rw [openLinks_concat, h.current, hcurrent]
  refine { atMostOne := ?_, current := hopen, linkNumbers := ?_, lineNumbers := ?_ }
  · intro past hpast
    obtain rfl | hpast := List.prefix_concat_iff.1 hpast
    · rw [hopen]
      exact Option.length_toList_le
    · exact h.atMostOne past hpast
  · rw [List.filterMap_append, h.linkNumbers, ← hlinks]
    cases hnote : note.opened? <;> simp [hnote]
  · rw [List.filterMap_append, h.lineNumbers, ← hlines]
    cases hnote : note.line? <;> simp [hnote]

theorem opened (h : IsBook none links lines notes) :
    IsBook (some links) (links + 1) lines (notes ++ [.opened links]) :=
  h.concat rfl List.range_succ.symm (List.append_nil _)

theorem wrote (h : IsBook link links lines notes) (other : Nat) (text : String) :
    IsBook link links (lines + 1) (notes ++ [.wrote other lines text]) :=
  h.concat rfl (List.append_nil _) List.range_succ.symm

theorem read (h : IsBook link links lines notes) (other : Nat) (reply : Reply) :
    IsBook link links lines (notes ++ [.read other reply]) :=
  h.concat rfl (List.append_nil _) (List.append_nil _)

theorem closed {old : Nat} (h : IsBook (some old) links lines notes) :
    IsBook none links lines (notes ++ [.closed old]) :=
  h.concat (List.erase_cons_head ..) (List.append_nil _) (List.append_nil _)

end IsBook

namespace Traffic

/-- Everything was answered and read. -/
def quiet : Traffic := ⟨true, [], []⟩

/-- The traffic on a link after something happened. -/
def follow (link : Nat) : Happening → Traffic → Traffic
  | .greets other text, traffic => if other = link then traffic.greet text else traffic
  | .answers other line text, traffic => if other = link then traffic.answer line text else traffic
  | .accepts, traffic | .lapses, traffic | .looks _, traffic => traffic

/-- Nothing comes on a link where nothing is on its way. -/
theorem follow_quiet (link : Nat) (happening : Happening) :
    quiet.follow link happening = quiet := by
  cases happening with
  | greets other text => exact ite_self _
  | answers other line text => exact ite_self _
  | accepts | lapses | looks _ => rfl

end Traffic

namespace Correspondence

/-- The text with which the peer greets the leader on a link, unless something lapses first. -/
def greeting? (link : Nat) : Happening → Option (Option String)
  | .greets other text => if other = link then some (some text) else none
  | .lapses => some none
  | _ => none

/-- The text with which the peer answers a line, unless something lapses first. -/
def answer? (link line : Nat) : Happening → Option (Option String)
  | .answers other owed text => if other = link ∧ owed = line then some (some text) else none
  | .lapses => some none
  | _ => none

/-- What is left of a schedule after the first happening that is an outcome. -/
def since (outcome? : Happening → Option Bool) (future : List Happening) : List Happening :=
  (future.dropWhile fun happening => (outcome? happening).isNone).tail

def acceptsInTime (future : List Happening) : Bool := (future.findSome? isAccepted?).getD false

def greetingInTime (link : Nat) (future : List Happening) : Option String :=
  ((since isAccepted? future).findSome? (greeting? link)).join

def answerInTime (link line : Nat) (future : List Happening) : Option String :=
  (future.findSome? (answer? link line)).join

/-- Nothing can be read on a link, and the first line that comes there brings the text that is
waited for, after which nothing is on its way. -/
structure Awaits (link : Nat) (text? : Happening → Option (Option String)) (answers : Option Nat)
    (traffic : Traffic) : Prop where
  unread : traffic.unread = []
  lapses : text? .lapses = some none
  step : ∀ happening, happening ≠ .lapses →
    text? happening = none ∧ traffic.follow link happening = traffic ∨
    ∃ text, text? happening = some (some text) ∧
      traffic.follow link happening = ⟨true, [], [⟨answers, text⟩]⟩

theorem awaits_fresh (link : Nat) : Awaits link (greeting? link) none .fresh where
  unread := rfl
  lapses := rfl
  step happening hlapses := by
    cases happening with
    | greets other text =>
      by_cases hother : other = link
      · exact .inr ⟨text, if_pos hother, if_pos hother⟩
      · exact .inl ⟨if_neg hother, if_neg hother⟩
    | answers other line text => exact .inl ⟨rfl, ite_self _⟩
    | accepts | looks _ => exact .inl ⟨rfl, rfl⟩
    | lapses => exact absurd rfl hlapses

theorem awaits_owed (link line : Nat) :
    Awaits link (answer? link line) (some line) ⟨true, [line], []⟩ where
  unread := rfl
  lapses := rfl
  step happening hlapses := by
    cases happening with
    | greets other text => exact .inl ⟨rfl, ite_self _⟩
    | answers other owed text =>
      by_cases hother : other = link ∧ owed = line
      · obtain ⟨rfl, rfl⟩ := hother
        exact .inr ⟨text, by simp [answer?], by simp [Traffic.follow, Traffic.answer]⟩
      · refine .inl ⟨if_neg hother, ?_⟩
        rw [not_and] at hother
        simpa [Traffic.follow, Traffic.answer] using hother
    | accepts | looks _ => exact .inl ⟨rfl, rfl⟩
    | lapses => exact absurd rfl hlapses

variable {link : Nat} {links : List Traffic} {traffic : Traffic}

theorem length_happen (happening : Happening) (links : List Traffic) :
    (happen happening links).length = links.length := by
  cases happening <;> first | rfl | exact List.length_modify ..

theorem getElem?_happen (h : links[link]? = some traffic) (happening : Happening) :
    (happen happening links)[link]? = some (traffic.follow link happening) := by
  cases happening with
  | greets other text | answers other line text =>
    rw [happen, List.getElem?_modify, h]
    split <;> simp_all [Traffic.follow]
  | accepts | lapses | looks _ => exact h

theorem await_spec (outcome? : Happening → Option Bool) (future : List Happening)
    (links : List Traffic) :
    (await outcome? future links).1 = (future.findSome? outcome?).getD false ∧
      (await outcome? future links).2.1 = since outcome? future := by
  induction future generalizing links with
  | nil => exact ⟨rfl, rfl⟩
  | cons happening rest ih =>
    rw [await, List.findSome?_cons, since, List.dropWhile_cons]
    cases outcome? happening with
    | some outcome => exact ⟨rfl, rfl⟩
    | none => exact ih _

theorem await_keeps (P : List Traffic → Prop)
    (hstep : ∀ happening links, P links → P (happen happening links))
    (outcome? : Happening → Option Bool) (future : List Happening) (h : P links) :
    P (await outcome? future links).2.2 := by
  induction future generalizing links with
  | nil => exact h
  | cons happening rest ih =>
    unfold await
    split
    · exact h
    · exact ih (hstep happening links h)

theorem length_await (outcome? : Happening → Option Bool) (future : List Happening)
    (links : List Traffic) : (await outcome? future links).2.2.length = links.length :=
  await_keeps (fun later => later.length = links.length)
    (fun happening later h => (length_happen happening later).trans h) outcome? future rfl

theorem quiet_await (outcome? : Happening → Option Bool) (future : List Happening)
    (h : links[link]? = some .quiet) :
    (await outcome? future links).2.2[link]? = some .quiet := by
  refine await_keeps (fun later => later[link]? = some .quiet) ?_ outcome? future h
  intro happening later hlater
  rw [getElem?_happen hlater, Traffic.follow_quiet]

theorem take?_of_unread_eq_nil (h : links[link]? = some traffic) (hunread : traffic.unread = []) :
    take? link links = none := by
  obtain ⟨isGreeted, owed, unread⟩ := traffic
  obtain rfl : unread = [] := hunread
  simp [take?, h]

theorem take?_of_unread_eq_cons {isGreeted : Bool} {owed : List Nat} {reply : Reply}
    {rest : List Reply} (h : links[link]? = some ⟨isGreeted, owed, reply :: rest⟩) :
    take? link links = some (reply, links.set link ⟨isGreeted, owed, rest⟩) := by
  simp [take?, h]

theorem length_take? {reply : Reply} {later : List Traffic}
    (h : take? link links = some (reply, later)) : later.length = links.length := by
  unfold take? at h
  split at h
  · obtain ⟨-, rfl⟩ := Prod.mk.inj (Option.some.inj h)
    exact List.length_set
  · cases h

/-- A line that is there already is read at once. -/
theorem awaitLine_of_take? {reply : Reply} {later : List Traffic}
    (h : take? link links = some (reply, later)) (future : List Happening) :
    awaitLine link future links = (some reply, future, later) := by
  cases future <;> rw [awaitLine, h]

theorem length_awaitLine (link : Nat) (future : List Happening) (links : List Traffic) :
    (awaitLine link future links).2.2.length = links.length := by
  induction future generalizing links with
  | nil =>
    rw [awaitLine]
    split
    case h_1 htake => exact length_take? htake
    case h_2 => rfl
  | cons happening rest ih =>
    rw [awaitLine]
    split
    case h_1 htake => exact length_take? htake
    case h_2 =>
      split
      · rfl
      · exact (ih _).trans (length_happen _ _)

/-- What is read on a link is the line that was waited for there, if it comes in time, and then
nothing is on its way. -/
theorem awaitLine_spec {text? : Happening → Option (Option String)} {answers : Option Nat}
    (hawaits : Awaits link text? answers traffic) (h : links[link]? = some traffic)
    (future : List Happening) :
    (awaitLine link future links).1 = (future.findSome? text?).join.map (⟨answers, ·⟩) ∧
      ((future.findSome? text?).join.isSome →
        (awaitLine link future links).2.2[link]? = some .quiet) := by
  induction future generalizing links with
  | nil =>
    rw [awaitLine, take?_of_unread_eq_nil h hawaits.unread]
    exact ⟨rfl, fun hsome => nomatch hsome⟩
  | cons happening rest ih =>
    have hlater := getElem?_happen h happening
    rw [awaitLine, take?_of_unread_eq_nil h hawaits.unread]
    dsimp only
    by_cases hlapses : happening = .lapses
    · rw [if_pos hlapses, List.findSome?_cons, hlapses, hawaits.lapses]
      exact ⟨rfl, fun hsome => nomatch hsome⟩
    · rw [if_neg hlapses]
      -- either nothing changed on this link, or the line came
      obtain ⟨hnone, hsame⟩ | ⟨text, hsome, hcame⟩ := hawaits.step happening hlapses
      · rw [List.findSome?_cons, hnone]
        exact ih (hsame ▸ hlater)
      · rw [hcame] at hlater
        rw [List.findSome?_cons, hsome, awaitLine_of_take? (take?_of_unread_eq_cons hlater)]
        exact ⟨rfl, fun _ => List.getElem?_set_self (List.getElem?_eq_some_iff.1 hlater).1⟩

/-- Between two rounds nothing is on its way on the open link. -/
structure IsCalm (link : Option Nat) (world : Correspondence) : Prop where
  book : IsBook link world.links.length world.lines world.notes
  quiet : ∀ current ∈ link, world.links[current]? = some .quiet

/-- What the leader does to open a link, and whether it has one then. -/
inductive Opening (future : List Happening) : List Note → Option Nat → Prop
  | unreached (h : acceptsInTime future = false) : Opening future [] none
  | ungreeted (link : Nat) (h : acceptsInTime future = true)
    (hgreeting : greetingInTime link future = none) :
    Opening future [.opened link, .closed link] none
  | greeted (link : Nat) (h : acceptsInTime future = true)
    (hgreeting : (greetingInTime link future).isSome) : Opening future [.opened link] (some link)

/-- What the leader does when it pings over a link: it reads the answer to this ping, if that comes
in time, and if it is not the one hoped for, the link is closed. -/
inductive Pinging (link line : Nat) (future : List Happening) : List Note → Option Nat → Prop
  | answered (h : answerInTime link line future = some pongReply) :
    Pinging link line future [.wrote link line pingLine, .read link ⟨some line, pongReply⟩]
      (some link)
  | refused {text : String} (h : answerInTime link line future = some text)
    (htext : text ≠ pongReply) :
    Pinging link line future
      [.wrote link line pingLine, .read link ⟨some line, text⟩, .closed link] none
  | lapsed (h : answerInTime link line future = none) :
    Pinging link line future [.wrote link line pingLine, .closed link] none

variable {world after : Correspondence}

/-- Whatever happens meanwhile, opening a link leaves nothing on its way, on the new link either. -/
theorem connect_spec (h : world.IsCalm none) {link : Option Nat}
    (hconnect : world.connect = (link, after)) : after.IsCalm link ∧
      ∃ notes, after.notes = world.notes ++ notes ∧ Opening world.future notes link := by
  unfold connect at hconnect
  have hlength := length_await isAccepted? world.future world.links
  obtain ⟨haccepted, hrest⟩ := await_spec isAccepted? world.future world.links
  rcases hawait : await isAccepted? world.future world.links with ⟨accepted, future, links⟩
  rw [hawait] at hconnect hlength haccepted hrest
  dsimp only at haccepted hrest
  cases accepted with
  | false =>
    obtain ⟨rfl, rfl⟩ := Prod.mk.inj hconnect
    exact ⟨⟨hlength ▸ h.book, fun _ hcurrent => nomatch hcurrent⟩, [],
      (List.append_nil _).symm, .unreached haccepted.symm⟩
  | true =>
    -- no link was open, so the new one is the only one
    have hopened : IsBook (some links.length) (links.length + 1) world.lines
        (world.notes ++ [.opened links.length]) := (hlength ▸ h.book).opened
    have hmore := length_awaitLine links.length future (links ++ [.fresh])
    have hgreeting : greetingInTime links.length world.future =
        (future.findSome? (greeting? links.length)).join := by
      rw [greetingInTime, ← hrest]
    obtain ⟨hreply, hquiet⟩ := awaitLine_spec (awaits_fresh links.length)
      (List.getElem?_concat_length (l := links)) future
    rw [← hgreeting] at hreply hquiet
    rw [List.length_append, List.length_singleton] at hmore
    dsimp only at hconnect
    rcases hline : awaitLine links.length future (links ++ [.fresh]) with ⟨reply, rest, later⟩
    rw [hline] at hconnect hmore hreply hquiet
    dsimp only at hmore hreply hquiet
    cases reply with
    | some reply =>
      obtain ⟨rfl, rfl⟩ := Prod.mk.inj hconnect
      have hsome : (greetingInTime links.length world.future).isSome := by
        rw [← Option.isSome_map, ← hreply]
        rfl
      refine ⟨⟨hmore ▸ hopened, ?_⟩, _, rfl, .greeted _ haccepted.symm hsome⟩
      rintro current ⟨⟩
      exact hquiet hsome
    | none =>
      obtain ⟨rfl, rfl⟩ := Prod.mk.inj hconnect
      exact ⟨⟨hmore ▸ hopened.closed, fun _ hcurrent => nomatch hcurrent⟩, _,
        List.append_assoc .., .ungreeted _ haccepted.symm (Option.map_eq_none_iff.1 hreply.symm)⟩

/-- A line is answered in time and its answer read, or the leader stops waiting. Nothing else can be
read. -/
theorem request_spec {link : Nat} (h : world.IsCalm (some link)) (text : String)
    {result : Option (String × Nat)} (hrequest : world.request link text = (result, after)) :
    (∃ reply, answerInTime link world.lines world.future = some reply ∧
      result = some (reply, link) ∧ after.IsCalm (some link) ∧ after.notes =
        world.notes ++ [.wrote link world.lines text] ++ [.read link ⟨some world.lines, reply⟩]) ∨
    answerInTime link world.lines world.future = none ∧
      result = none ∧ IsBook (some link) after.links.length after.lines after.notes ∧
        after.notes = world.notes ++ [.wrote link world.lines text] := by
  unfold request at hrequest
  have hwrote := h.book.wrote link text
  let asked := world.links.modify link fun traffic =>
    { traffic with owed := traffic.owed ++ [world.lines] }
  -- nothing was on its way, so this line is the only one that is owed an answer
  have howed : asked[link]? = some ⟨true, [world.lines], []⟩ := by
    rw [List.getElem?_modify_eq, h.quiet link rfl]
    rfl
  have hlength : (awaitLine link world.future asked).2.2.length = world.links.length :=
    (length_awaitLine ..).trans (List.length_modify ..)
  obtain ⟨hreply, hquiet⟩ := awaitLine_spec (awaits_owed link world.lines) howed world.future
  rw [← answerInTime] at hreply hquiet
  dsimp only at hrequest
  rcases hline : awaitLine link world.future asked with ⟨reply, rest, later⟩
  rw [hline] at hrequest hlength hreply hquiet
  dsimp only at hlength hreply hquiet
  cases hanswer : answerInTime link world.lines world.future with
  | some text =>
    rw [hanswer] at hreply hquiet
    obtain rfl := hreply
    obtain ⟨rfl, rfl⟩ := Prod.mk.inj hrequest
    refine .inl ⟨text, rfl, rfl, ⟨hlength ▸ hwrote.read link _, ?_⟩, rfl⟩
    rintro current ⟨⟩
    exact hquiet rfl
  | none =>
    rw [hanswer] at hreply
    obtain rfl := hreply
    obtain ⟨rfl, rfl⟩ := Prod.mk.inj hrequest
    exact .inr ⟨rfl, rfl, hlength ▸ hwrote, rfl⟩

theorem run_ping (link : Nat) (world : Correspondence) : (reach.ping link).run world =
    match world.request link pingLine with
    | (some (reply, link), later) =>
      if reply = pongReply then (some link, later) else (none, later.close link)
    | (none, later) => (none, later.close link) := by
  have hrun : (reach.request link pingLine).run world = world.request link pingLine := rfl
  rw [Links.ping, StateT.run_bind, hrun]
  rcases world.request link pingLine with ⟨_ | ⟨reply, found⟩, later⟩
  · rfl
  · change ((if reply = pongReply then pure (some found) else do reach.close found; pure none :
      StateM Correspondence (Option Nat)).run later) = _
    by_cases hreply : reply = pongReply
    · simp only [if_pos hreply]
      rfl
    · simp only [if_neg hreply]
      rfl

theorem IsCalm.close {link : Nat}
    (h : IsBook (some link) world.links.length world.lines world.notes) :
    (world.close link).IsCalm none :=
  ⟨h.closed, fun _ hcurrent => nomatch hcurrent⟩

/-- A ping leaves nothing on its way on the link that is kept. -/
theorem ping_spec {link : Nat} (h : world.IsCalm (some link)) {kept : Option Nat}
    (hping : (reach.ping link).run world = (kept, after)) :
    after.IsCalm kept ∧ ∃ notes, after.notes = world.notes ++ notes ∧
      Pinging link world.lines world.future notes kept := by
  rw [run_ping] at hping
  rcases hrequest : world.request link pingLine with ⟨result, later⟩
  rw [hrequest] at hping
  obtain ⟨text, hanswer, rfl, hcalm, hnotes⟩ | ⟨hanswer, rfl, hbook, hnotes⟩ :=
    request_spec h _ hrequest
  · dsimp only at hping
    by_cases htext : text = pongReply
    · rw [if_pos htext] at hping
      obtain ⟨rfl, rfl⟩ := Prod.mk.inj hping
      subst htext
      exact ⟨hcalm, _, hnotes.trans (List.append_assoc ..), .answered hanswer⟩
    · rw [if_neg htext] at hping
      obtain ⟨rfl, rfl⟩ := Prod.mk.inj hping
      refine ⟨.close hcalm.book, _, ?_, .refused hanswer htext⟩
      simp [close, hnotes]
  · obtain ⟨rfl, rfl⟩ := Prod.mk.inj hping
    refine ⟨.close hbook, _, ?_, .lapsed hanswer⟩
    simp [close, hnotes]

theorem run_tick_none (world : Correspondence) : (reach.tick none).run world =
    match world.connect with
    | (some link, later) => (reach.ping link).run later
    | (none, later) => (none, later) := by
  have hrun : reach.connect.run world = world.connect := rfl
  rw [Links.tick, StateT.run_bind, hrun]
  rcases world.connect with ⟨_ | link, later⟩ <;> rfl

/-- Where the leader is when it has a link, if it can get one. -/
def ready (before : Option Nat) (world : Correspondence) : Correspondence :=
  if before.isSome then world else world.connect.2

/-- What the leader does in a round, for its link before and after that. -/
inductive Ticking (world : Correspondence) : Option Nat → List Note → Option Nat → Prop
  | failed {notes : List Note} (h : Opening world.future notes none) : Ticking world none notes none
  | opened {first rest : List Note} {link line : Nat} {after : Option Nat}
    (hfirst : Opening world.future first (some link))
    (hrest : Pinging link line (world.ready none).future rest after) :
    Ticking world none (first ++ rest) after
  | kept {notes : List Note} {link line : Nat} {after : Option Nat}
    (h : Pinging link line (world.ready (some link)).future notes after) :
    Ticking world (some link) notes after

/-- **One round** begins and ends with nothing on its way on the open link. -/
theorem tick_spec {before kept : Option Nat} (h : world.IsCalm before)
    (htick : (reach.tick before).run world = (kept, after)) :
    after.IsCalm kept ∧
      ∃ notes, after.notes = world.notes ++ notes ∧ Ticking world before notes kept := by
  cases before with
  | some link =>
    obtain ⟨hcalm, notes, hnotes, hping⟩ := ping_spec h htick
    exact ⟨hcalm, notes, hnotes, .kept hping⟩
  | none =>
    rw [run_tick_none] at htick
    rcases hconnect : world.connect with ⟨link, later⟩
    obtain ⟨hlater, first, hfirst, hopening⟩ := connect_spec h hconnect
    have hready : world.ready none = later := congrArg Prod.snd hconnect
    rw [hconnect] at htick
    cases link with
    | none =>
      obtain ⟨rfl, rfl⟩ := Prod.mk.inj htick
      exact ⟨hlater, first, hfirst, .failed hopening⟩
    | some link =>
      obtain ⟨hcalm, rest, hrest, hping⟩ := ping_spec hlater htick
      refine ⟨hcalm, first ++ rest, ?_, .opened hopening (hready ▸ hping)⟩
      rw [hrest, hfirst, List.append_assoc]

/-- One round: where it begins, the link before and after it, and what the leader does in it. -/
structure Round where
  start : Correspondence
  before : Option Nat
  after : Option Nat
  notes : List Note
  deriving DecidableEq, Repr

/-- The end of a run, in which the last link is closed. -/
def finish (link : Option Nat) (world : Correspondence) : Correspondence :=
  link.elim world fun link => world.close link

/-- Keeps a link to the peer, and records each round. -/
def record : (rounds : Nat) → Option Nat → Correspondence → List Round × Correspondence
  | 0, link, world => ([], world.finish link)
  | rounds + 1, before, world =>
    match world.look with
    | (false, world) => ([], world.finish before)
    | (true, world) =>
      let (after, next) := (reach.tick before).run world
      let (later, final) := record rounds after next
      (⟨world, before, after, next.notes.drop world.notes.length⟩ :: later, final)

theorem run_finish (link : Option Nat) (world : Correspondence) :
    (link.forM reach.close).run world = ((), world.finish link) := by
  cases link <;> rfl

theorem run_round? (link : Option Nat) (world : Correspondence) :
    (reach.round? (modifyGet look) link).run world =
      if world.look.1 then
        (some ((reach.tick link).run world.look.2).1, ((reach.tick link).run world.look.2).2)
      else (none, world.look.2.finish link) := by
  have hlook : (modifyGet look : StateM Correspondence Bool).run world = world.look := rfl
  rw [Links.round?, StateT.run_bind, hlook]
  rcases world.look with ⟨_ | _, later⟩
  · cases link <;> rfl
  · rfl

/-- To record the rounds changes nothing in what the leader does. -/
theorem run_keepAlive (rounds : Nat) (link : Option Nat) (world : Correspondence) :
    (keepAlive rounds link).run world = ((), (record rounds link world).2) := by
  induction rounds generalizing link world with
  | zero => exact run_finish link world
  | succ rounds ih =>
    rw [keepAlive, Links.keepAlive, StateT.run_bind, run_round?, record]
    rcases world.look with ⟨_ | _, later⟩
    · rfl
    · exact ih _ _

theorem look_spec {link : Option Nat} (h : world.IsCalm link) {leads : Bool}
    (hlook : world.look = (leads, after)) : after.IsCalm link ∧ after.notes = world.notes := by
  have hlength := length_await leads? world.future world.links
  obtain ⟨-, rfl⟩ := Prod.mk.inj hlook
  refine ⟨⟨?_, fun current hcurrent => ?_⟩, rfl⟩
  · exact hlength.symm ▸ h.book
  · exact quiet_await _ _ (h.quiet current hcurrent)

theorem finish_spec {link : Option Nat} (h : world.IsCalm link) :
    (world.finish link).IsCalm none ∧
      (world.finish link).notes = world.notes ++ link.toList.map .closed := by
  cases link with
  | none => exact ⟨h, (List.append_nil _).symm⟩
  | some link => exact ⟨.close h.book, rfl⟩

/-- The rounds of a run follow one another, each a tick, and the last link is closed after them. -/
theorem record_spec {link : Option Nat} (h : world.IsCalm link) (rounds : Nat)
    {run : List Round} {after : Correspondence} (hrun : record rounds link world = (run, after)) :
    after.IsCalm none ∧
    (∃ last, link :: run.map Round.after = run.map Round.before ++ [last] ∧
      after.notes = world.notes ++ run.flatMap Round.notes ++ last.toList.map .closed) ∧
    ∀ round ∈ run, Ticking round.start round.before round.notes round.after := by
  induction rounds generalizing link world run after with
  | zero =>
    obtain ⟨rfl, rfl⟩ := Prod.mk.inj hrun
    obtain ⟨hcalm, hnotes⟩ := finish_spec h
    exact ⟨hcalm, ⟨link, rfl, by simpa using hnotes⟩, fun _ hround => nomatch hround⟩
  | succ rounds ih =>
    rw [record] at hrun
    rcases hlook : world.look with ⟨leads, looked⟩
    obtain ⟨hlooked, hsame⟩ := look_spec h hlook
    rw [hlook] at hrun
    cases leads with
    | false =>
      obtain ⟨rfl, rfl⟩ := Prod.mk.inj hrun
      obtain ⟨hcalm, hnotes⟩ := finish_spec hlooked
      exact ⟨hcalm, ⟨link, rfl, by simpa [hsame] using hnotes⟩, fun _ hround => nomatch hround⟩
    | true =>
      rcases htick : (reach.tick link).run looked with ⟨kept, next⟩
      rcases hlater : record rounds kept next with ⟨later, final⟩
      obtain ⟨hnext, notes, hnotes, hticking⟩ := tick_spec hlooked htick
      obtain ⟨hcalm, ⟨last, hchain, hall⟩, hrounds⟩ := ih hnext hlater
      dsimp only at hrun
      rw [htick] at hrun
      dsimp only at hrun
      rw [hlater] at hrun
      obtain ⟨rfl, rfl⟩ := Prod.mk.inj hrun
      have hdone : next.notes.drop looked.notes.length = notes := by
        rw [hnotes, List.drop_left]
      refine ⟨hcalm, ⟨last, congrArg (link :: ·) hchain, ?_⟩, ?_⟩
      · rw [hall, List.flatMap_cons, hdone, hnotes, hsame, List.append_assoc world.notes]
      · intro round hround
        obtain rfl | hround := List.mem_cons.1 hround
        · exact hdone ▸ hticking
        · exact hrounds round hround

/-- In this round replies were not mistaken for one another. -/
structure Round.IsFresh (round : Round) : Prop where
  /-- Without a link, one is opened exactly if the peer accepts it in time. -/
  opens : round.before = none →
    ((∃ link, .opened link ∈ round.notes) ↔ acceptsInTime round.start.future = true)
  /-- The peer is pinged on the link that was open, or on one that was greeted in time. -/
  pings : ∀ link, (∃ line, .wrote link line pingLine ∈ round.notes) ↔ round.before = some link ∨
    .opened link ∈ round.notes ∧ (greetingInTime link round.start.future).isSome
  /-- What is read is what answers the ping of this round in time. -/
  reads : ∀ link reply, .read link reply ∈ round.notes ↔
    ∃ line text, .wrote link line pingLine ∈ round.notes ∧
      answerInTime link line (round.start.ready round.before).future = some text ∧
        reply = ⟨some line, text⟩
  /-- A link is kept exactly if the ping of this round is answered there in time as it should be. -/
  kept : ∀ link, round.after = some link ↔ ∃ line, .wrote link line pingLine ∈ round.notes ∧
    answerInTime link line (round.start.ready round.before).future = some pongReply
  /-- At most one line is written. -/
  once : (round.notes.filterMap Note.line?).length ≤ 1
  /-- No link is used but the one that was open. -/
  same : ∀ link, round.before = some link → ∀ note ∈ round.notes, note.link = link

section Pinging

variable {link line : Nat} {future : List Happening} {notes : List Note} {after : Option Nat}

theorem Pinging.wrote_iff (h : Pinging link line future notes after) {other owed : Nat} :
    .wrote other owed pingLine ∈ notes ↔ other = link ∧ owed = line := by
  cases h <;> simp

/-- What is read answers what was written. -/
theorem Pinging.read_iff (h : Pinging link line future notes after) {other : Nat} {reply : Reply} :
    .read other reply ∈ notes ↔ ∃ owed text, .wrote other owed pingLine ∈ notes ∧
      answerInTime other owed future = some text ∧ reply = ⟨some owed, text⟩ := by
  have hread : .read other reply ∈ notes ↔ other = link ∧
      ∃ text, answerInTime link line future = some text ∧ reply = ⟨some line, text⟩ := by
    cases h with
    | answered h | refused h | lapsed h => simp [h]
  rw [hread]
  constructor
  · rintro ⟨rfl, text, hanswer⟩
    exact ⟨line, text, h.wrote_iff.2 ⟨rfl, rfl⟩, hanswer⟩
  · rintro ⟨owed, text, hwrote, hanswer⟩
    obtain ⟨rfl, rfl⟩ := h.wrote_iff.1 hwrote
    exact ⟨rfl, text, hanswer⟩

/-- The link is kept exactly if the line written on it in this round was answered in time, by
`pong`. -/
theorem Pinging.kept_iff (h : Pinging link line future notes after) {other : Nat} :
    after = some other ↔ ∃ owed, .wrote other owed pingLine ∈ notes ∧
      answerInTime other owed future = some pongReply := by
  have hkept : after = some other ↔
      other = link ∧ answerInTime link line future = some pongReply := by
    cases h with
    | answered h => simp [h, eq_comm]
    | refused h htext => simp [h, htext]
    | lapsed h => simp [h]
  rw [hkept]
  constructor
  · rintro ⟨rfl, hanswer⟩
    exact ⟨line, h.wrote_iff.2 ⟨rfl, rfl⟩, hanswer⟩
  · rintro ⟨owed, hwrote, hanswer⟩
    obtain ⟨rfl, rfl⟩ := h.wrote_iff.1 hwrote
    exact ⟨rfl, hanswer⟩

theorem Pinging.opened_notMem (h : Pinging link line future notes after) (other : Nat) :
    .opened other ∉ notes := by
  cases h <;> simp

/-- A ping writes one line. -/
theorem Pinging.once (h : Pinging link line future notes after) :
    notes.filterMap Note.line? = [line] := by
  cases h <;> rfl

theorem Pinging.link_eq (h : Pinging link line future notes after) {note : Note}
    (hnote : note ∈ notes) : note.link = link := by
  cases h <;> revert note <;> simp [Note.link]

end Pinging

/-- Whatever a round can be, in it no reply is taken for an answer to another ping. -/
theorem Ticking.isFresh {round : Round}
    (h : Ticking round.start round.before round.notes round.after) : round.IsFresh := by
  obtain ⟨start, before, after, notes⟩ := round
  dsimp only at h
  cases h with
  | failed hopening =>
    cases hopening with
    | unreached haccepts =>
      exact {
        opens := by simp [haccepts]
        pings := by simp
        reads := by simp
        kept := by simp
        once := Nat.zero_le 1
        same := by simp }
    | ungreeted link haccepts hgreeting =>
      exact {
        opens := by simp [haccepts]
        pings := by simp [hgreeting]
        reads := by simp
        kept := by simp
        once := Nat.zero_le 1
        same := by simp }
  | opened hfirst hrest =>
    cases hfirst with
    | greeted link haccepts hgreeting =>
      exact {
        opens := by simp [haccepts]
        pings := by simp [hrest.wrote_iff, hrest.opened_notMem, hgreeting]
        reads := by simp [hrest.read_iff]
        kept := by simp [hrest.kept_iff]
        once := Nat.le_of_eq (congrArg List.length hrest.once)
        same := by simp }
  | kept hping =>
    exact {
      opens := by simp
      pings := fun other => by simp [hping.wrote_iff, hping.opened_notMem, eq_comm (a := other)]
      reads := fun _ _ => hping.read_iff
      kept := fun _ => hping.kept_iff
      once := Nat.le_of_eq (congrArg List.length hping.once)
      same := fun _ hbefore _ hnote => (hping.link_eq hnote).trans (Option.some.inj hbefore) }

theorem isCalm_start (future : List Happening) : IsCalm none { future } :=
  ⟨.nil, fun _ hcurrent => nomatch hcurrent⟩

/-- **No late reply is taken for a fresh one.** Whatever happens between a leader and its peer, in
any number of rounds: at no time is more than one link open, and none in the end. Every link and
every line has a number of its own, so the reply that is read in a round, which answers the line of
this round, answers no earlier one. A round leaves its link open exactly if that reply comes in time
and is the awaited one. -/
theorem keepAlive_fresh (future : List Happening) (rounds : Nat) :
    ∃ (run : List Round) (last : Option Nat) (final : Correspondence),
      record rounds none { future } = (run, final) ∧
      (keepAlive rounds none).run { future } = ((), final) ∧
      none :: run.map Round.after = run.map Round.before ++ [last] ∧
      final.notes = run.flatMap Round.notes ++ last.toList.map .closed ∧
      (∀ past, past <+: final.notes → (openLinks past).length ≤ 1) ∧
      openLinks final.notes = [] ∧
      (final.notes.filterMap Note.opened?).Nodup ∧ (final.notes.filterMap Note.line?).Nodup ∧
      ∀ round ∈ run, round.IsFresh := by
  rcases hrecord : record rounds none { future } with ⟨run, final⟩
  obtain ⟨⟨hbook, -⟩, ⟨last, hchain, hnotes⟩, hrounds⟩ :=
    record_spec (isCalm_start future) rounds hrecord
  refine ⟨run, last, final, rfl, ?_, hchain, hnotes, hbook.atMostOne, hbook.current, ?_, ?_,
    fun round hround => (hrounds round hround).isFresh⟩
  · rw [run_keepAlive, hrecord]
  · exact hbook.linkNumbers ▸ List.nodup_range
  · exact hbook.lineNumbers ▸ List.nodup_range

/-- The peer answers the first ping too late, on a link that is closed by then, the second one in
time and the third one with something else. -/
def latePong : List Happening :=
  [.looks true, .accepts, .greets 0 "hello", .lapses, .answers 0 0 "pong",
    .looks true, .accepts, .greets 1 "hello", .answers 1 1 "pong",
    .looks true, .answers 1 2 "ping", .looks false]

/-- The late answer is still there in the end. -/
theorem latePong_unread : ∃ (run : List Round) (final : Correspondence),
    record 9 none { future := latePong } = (run, final) ∧
      run.map Round.after = [none, some 1, none] ∧
      final.links = [⟨true, [], [⟨some 0, "pong"⟩]⟩, .quiet] ∧
      (openLinks (final.notes.take 4)).length ≤ 1 ∧ ∀ round ∈ run, round.IsFresh := by
  obtain ⟨run, last, final, hrecord, -, -, -, hsingle, -, -, -, hfresh⟩ :=
    keepAlive_fresh latePong 9
  obtain ⟨rfl, rfl⟩ := Prod.mk.inj hrecord
  exact ⟨_, _, rfl, by decide, by decide, hsingle _ (List.take_prefix 4 _), hfresh⟩

end Correspondence

end BrokerCluster.Election
