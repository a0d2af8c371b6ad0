import Mathlib.Algebra.BigOperators.Group.List.Basic
import Mathlib.Algebra.Ring.Nat
import BrokerCluster.Proofs.Monitoring.Counts
import BrokerCluster.Proofs.Text.ByteOrder
import BrokerCluster.Proofs.Wire.Lines

/-!
# Statistics

The total of a tally is the number of datagrams that were counted. Two tallies with the same
counts are the same, so the order in which datagrams come makes no difference. A report has
one line for each server and each key, and no text is the report of two tallies: names hold no
white space, and only the lines of keys begin with a space.
-/
namespace BrokerCluster.Monitoring

open Text

section Ordered

variable {α : Type} {xs ys : Ordered α}

/-- What changes an entry by one changes the sum over all entries by one. -/
theorem sum_upsert (weight : α → Nat) {change : Option α → α} (hnew : weight (change none) = 1)
    (hold : ∀ entry, weight (change (some entry)) = weight entry + 1) (name : String) :
    ((upsert name change xs).map fun entry => weight entry.2).sum =
      (xs.map fun entry => weight entry.2).sum + 1 := by
  induction xs with
  | nil => simp [upsert, hnew]
  | cons first rest ih =>
    obtain ⟨n, entry⟩ := first
    unfold upsert
    split
    · rw [List.map_cons, List.sum_cons, hnew, Nat.add_comm]
    · split
      · simp only [List.map_cons, List.sum_cons, hold]
        omega
      · rw [List.map_cons, List.map_cons, List.sum_cons, List.sum_cons, ih, Nat.add_assoc]

/-- Entries in ascending order are determined by which they are. -/
theorem IsAscending.ext (hx : IsAscending xs) (hy : IsAscending ys)
    (h : ∀ entry, entry ∈ xs ↔ entry ∈ ys) : xs = ys := by
  have hnodup : ∀ zs : Ordered α, IsAscending zs → zs.Nodup := by
    refine fun zs hz => List.Pairwise.imp ?_ hz
    rintro a b hlt rfl
    exact String.lt_irrefl _ hlt
  have hperm := (List.perm_ext_iff_of_nodup (hnodup xs hx) (hnodup ys hy)).2 h
  exact hperm.eq_of_pairwise (fun a b _ _ hab hba => absurd hba (String.lt_asymm hab)) hx hy

end Ordered

namespace Tally

theorem serverTotal_eq_sum (keys : Ordered Nat) :
    serverTotal keys = (keys.map fun entry => entry.2).sum := by
  induction keys with
  | nil => rfl
  | cons entry rest ih => rw [List.map_cons, List.sum_cons, ← ih]; rfl

theorem received_eq_sum (tally : Tally) :
    tally.received = (tally.map fun line => serverTotal line.2).sum := by
  induction tally with
  | nil => rfl
  | cons line rest ih => rw [List.map_cons, List.sum_cons, ← ih]; rfl

theorem received_eq_sum_entries (tally : Tally) :
    tally.received = (tally.entries.map fun entry => entry.2.2).sum := by
  rw [received_eq_sum]
  induction tally with
  | nil => rfl
  | cons line rest ih =>
    rw [List.map_cons, List.sum_cons, ih, serverTotal_eq_sum]
    simp [entries, List.map_map, Function.comp_def]

theorem received_add (tally : Tally) (server key : String) :
    (tally.add server key).received = tally.received + 1 := by
  have hkeys : ∀ keys : Ordered Nat,
      serverTotal (upsert key (fun count => count.getD 0 + 1) keys) = serverTotal keys + 1 := by
    intro keys
    rw [serverTotal_eq_sum, serverTotal_eq_sum]
    exact sum_upsert id rfl (fun _ => rfl) key
  rw [received_eq_sum, received_eq_sum]
  exact sum_upsert serverTotal (hkeys []) hkeys server

/-- For each datagram whether it is counted, if they come one after another. -/
def answers (tally : Tally) : List String → List Bool
  | [] => []
  | datagram :: rest =>
    let (tally, counted) := tally.record datagram
    counted :: answers tally rest

theorem received_record (tally : Tally) (datagram : String) :
    (tally.record datagram).1.received = tally.received + (tally.record datagram).2.toNat := by
  unfold record
  split
  · exact received_add tally _ _
  · rfl

/-- The total grows by the number of datagrams that are counted. -/
theorem received_recordAll (tally : Tally) (datagrams : List String) :
    (tally.recordAll datagrams).received =
      tally.received + (tally.answers datagrams).count true := by
  induction datagrams generalizing tally with
  | nil => rfl
  | cons datagram rest ih =>
    change ((tally.record datagram).1.recordAll rest).received = _
    rw [ih, received_record, answers, Nat.add_assoc, List.count_cons, Nat.add_comm (Bool.toNat _)]
    cases (tally.record datagram).2 <;> rfl

theorem mem_entries {tally : Tally} {server key : String} {n : Nat} :
    (server, key, n) ∈ tally.entries ↔ ∃ keys, (server, keys) ∈ tally ∧ (key, n) ∈ keys := by
  simp only [entries, List.mem_flatMap, List.mem_map]
  constructor
  · rintro ⟨⟨_, keys⟩, hline, _, hkey, heq⟩
    cases heq
    exact ⟨keys, hline, hkey⟩
  · rintro ⟨keys, hline, hkey⟩
    exact ⟨(server, keys), hline, (key, n), hkey, rfl⟩

section

variable {tally other : Tally} (h : tally.IsSound)
include h

/-- The keys of a server are those with a count, each with its own. -/
theorem IsSound.mem_keys_iff {line : String × Ordered Nat} (hline : line ∈ tally) {key : String}
    {n : Nat} : (key, n) ∈ line.2 ↔ 0 < n ∧ tally.count line.1 key = n := by
  have hkeys : tally.lookup line.1 = some line.2 := h.servers.lookup_eq_some_iff.2 hline
  rw [count, hkeys, Option.getD_some, ← (h.keys _ _ hkeys).lookup_eq_some_iff]
  constructor
  · intro hkey
    exact ⟨h.counted _ _ hkeys key n hkey, by rw [hkey, Option.getD_some]⟩
  · rintro ⟨hpositive, hcount⟩
    cases hkey : line.2.lookup key with
    | none =>
      rw [hkey] at hcount
      exact absurd hcount (Nat.ne_of_lt hpositive)
    | some found =>
      rw [hkey, Option.getD_some] at hcount
      rw [hcount]

theorem IsSound.mem_of_count_eq (hother : other.IsSound)
    (hcount : ∀ server key, tally.count server key = other.count server key)
    {line : String × Ordered Nat} (hline : line ∈ tally) : line ∈ other := by
  obtain ⟨server, keys⟩ := line
  have hused := h.used _ _ (h.servers.lookup_eq_some_iff.2 hline)
  obtain ⟨⟨key, n⟩, hkey⟩ := List.exists_mem_of_ne_nil _ hused
  obtain ⟨hpositive, hn⟩ := (h.mem_keys_iff hline).1 hkey
  obtain ⟨found, hfound, -⟩ := mem_entries.1
    ((mem_entries_iff hother).2 ⟨hpositive, (hcount server key).symm.trans hn⟩)
  have hkeys : keys = found := by
    refine (h.keys _ _ (h.servers.lookup_eq_some_iff.2 hline)).ext
      (hother.keys _ _ (hother.servers.lookup_eq_some_iff.2 hfound)) ?_
    rintro ⟨name, m⟩
    rw [h.mem_keys_iff hline, hother.mem_keys_iff hfound, hcount]
  exact hkeys ▸ hfound

/-- A tally is determined by its counts. -/
theorem IsSound.ext (hother : other.IsSound)
    (hcount : ∀ server key, tally.count server key = other.count server key) : tally = other :=
  h.servers.ext hother.servers fun _ =>
    ⟨h.mem_of_count_eq hother hcount,
      hother.mem_of_count_eq h fun server key => (hcount server key).symm⟩

end

/-- What a tally counts of some datagrams, whatever their order. -/
theorem count_recordAll (datagrams : List String) (server key : String) :
    (empty.recordAll datagrams).count server key =
      datagrams.countP fun text => words text = [server, key] :=
  ((recordAll_spec isSound_empty datagrams).2 server key).trans (Nat.zero_add _)

theorem isSound_recordAll (datagrams : List String) : (empty.recordAll datagrams).IsSound :=
  (recordAll_spec isSound_empty datagrams).1

/-- The order in which datagrams come does not matter. -/
theorem recordAll_eq_of_perm {first second : List String} (h : first.Perm second) :
    empty.recordAll first = empty.recordAll second := by
  refine (isSound_recordAll first).ext (isSound_recordAll second) fun server key => ?_
  rw [count_recordAll, count_recordAll, h.countP_eq]

def IsNamed (tally : Tally) : Prop :=
  ∀ line ∈ tally, IsWord line.1 ∧ ∀ entry ∈ line.2, IsWord entry.1

theorem isNamed_recordAll (datagrams : List String) : (empty.recordAll datagrams).IsNamed := by
  intro line hline
  have hsound := isSound_recordAll datagrams
  have hwords : ∀ entry ∈ line.2, IsWord line.1 ∧ IsWord entry.1 := by
    intro entry hentry
    have hcount := (hsound.mem_keys_iff hline).1 hentry
    rw [count_recordAll] at hcount
    obtain ⟨text, -, htext⟩ := List.countP_pos_iff.1 (hcount.2 ▸ hcount.1)
    have hall := fun w (hw : w ∈ words text) => Wire.isWord_of_mem_words hw
    rw [of_decide_eq_true htext] at hall
    simpa using hall
  have hused := hsound.used _ _ (hsound.servers.lookup_eq_some_iff.2 hline)
  obtain ⟨entry, hentry⟩ := List.exists_mem_of_ne_nil _ hused
  exact ⟨(hwords entry hentry).1, fun entry hentry => (hwords entry hentry).2⟩

def serverLine (server : String) : String := "Server " ++ server

def keyLine (entry : String × Nat) : String := "  " ++ entry.1 ++ " " ++ toString entry.2

def reportLines (tally : Tally) : List String :=
  tally.flatMap fun line => serverLine line.1 :: line.2.map keyLine

theorem toList_report (tally : Tally) :
    tally.report.toList = tally.reportLines.flatMap fun line => line.toList ++ ['\n'] := by
  have hline : ∀ line : String, (line ++ "\n").toList = line.toList ++ ['\n'] := by simp
  have hserver : ∀ line : String × Ordered Nat, (serverReport line.1 line.2).toList =
      (serverLine line.1 :: line.2.map keyLine).flatMap fun line => line.toList ++ ['\n'] := by
    intro line
    rw [serverReport, String.toList_append, String.toList_join, List.flatMap_map,
      List.flatMap_cons, List.flatMap_map, ← serverLine, hline]
    simp only [← hline, keyLine]
  rw [report, String.toList_join, List.flatMap_map, reportLines, List.flatMap_assoc]
  exact congrArg (fun f => List.flatMap f tally) (funext hserver)

theorem words_serverLine {server : String} (h : IsWord server) :
    words (serverLine server) = ["Server", server] := by
  have hsplit : serverLine server = "Server" ++ " " ++ server := rfl
  have hword : IsWord "Server" := by decide
  rw [hsplit, words_append_space, words_of_isWord hword, words_of_isWord h]
  rfl

theorem words_keyLine {entry : String × Nat} (h : IsWord entry.1) :
    words (keyLine entry) = [entry.1, toString entry.2] := by
  have hsplit : "  " ++ entry.1 = "" ++ " " ++ ("" ++ " " ++ entry.1) := by
    simp [← String.append_assoc]
  rw [keyLine, words_append_space, hsplit, words_append_space, words_append_space, words_empty,
    words_of_isWord h, words_of_isWord (isWord_toString entry.2)]
  rfl

/-- No line of a report holds a line feed. -/
theorem IsNamed.lineFeed_notMem {tally : Tally} (h : tally.IsNamed) {line : String}
    (hline : line ∈ tally.reportLines) : '\n' ∉ line.toList := by
  have hword : ∀ {w : String}, IsWord w → '\n' ∉ w.toList := fun hw hmem =>
    absurd (hw.not_blank _ hmem) (by decide)
  obtain ⟨⟨server, keys⟩, hserver, hline⟩ := List.mem_flatMap.1 hline
  obtain ⟨hname, hkeys⟩ := h _ hserver
  obtain rfl | hkey := List.mem_cons.1 hline
  · simpa [serverLine] using hword hname
  · obtain ⟨⟨key, n⟩, hentry, rfl⟩ := List.mem_map.1 hkey
    simp only [keyLine, String.toList_append, List.mem_append, not_or]
    exact ⟨⟨⟨by decide, hword (hkeys _ hentry)⟩, by decide⟩, hword (isWord_toString n)⟩

/-- Lines without line feeds are read off the text in which each is ended by one. -/
theorem splitOn_flatMap_lines {lines : List String} (h : ∀ line ∈ lines, '\n' ∉ line.toList) :
    (lines.flatMap fun line => line.toList ++ ['\n']).splitOn '\n' =
      lines.map String.toList ++ [[]] := by
  induction lines with
  | nil => rfl
  | cons line rest ih =>
    obtain ⟨hline, hrest⟩ := List.forall_mem_cons.1 h
    have hfree : ∀ c ∈ line.toList, (c == '\n') = false := fun c hc =>
      beq_false_of_ne fun heq => hline (heq ▸ hc)
    rw [List.flatMap_cons, List.append_assoc, List.singleton_append, List.splitOn,
      List.splitOnP_append_cons_of_forall_mem hfree _ (beq_self_eq_true _), ← List.splitOn,
      ih hrest]
    rfl

/-- No name holds a line feed, so a report can be cut into its lines again. -/
theorem IsNamed.splitOn_report {tally : Tally} (h : tally.IsNamed) :
    tally.report.toList.splitOn '\n' = tally.reportLines.map String.toList ++ [[]] := by
  rw [toList_report]
  exact splitOn_flatMap_lines fun line hline => h.lineFeed_notMem hline

/-- Whether a line is that of a key. -/
def isIndented (line : String) : Bool := line.toList.head? == some ' '

theorem isIndented_keyLine (entry : String × Nat) : isIndented (keyLine entry) = true := by
  simp [isIndented, keyLine]

theorem takeWhile_reportLines (tally : Tally) : tally.reportLines.takeWhile isIndented = [] := by
  cases tally with
  | nil => rfl
  | cons line rest =>
    have hserver : isIndented (serverLine line.1) = false := by simp [isIndented, serverLine]
    rw [reportLines, List.flatMap_cons, List.cons_append]
    exact List.takeWhile_cons_of_neg (by simp [hserver])

/-- The lines of the first server's keys are those before the line of the next server. -/
theorem keyLines_append_inj {keys found : Ordered Nat} {tally other : Tally}
    (h : keys.map keyLine ++ tally.reportLines = found.map keyLine ++ other.reportLines) :
    keys.map keyLine = found.map keyLine ∧ tally.reportLines = other.reportLines := by
  have hindented : ∀ keys : Ordered Nat, ∀ line ∈ keys.map keyLine, isIndented line = true := by
    intro keys line hline
    obtain ⟨entry, -, rfl⟩ := List.mem_map.1 hline
    exact isIndented_keyLine entry
  have hfront := congrArg (List.takeWhile isIndented) h
  rw [List.takeWhile_append_of_pos (hindented keys), List.takeWhile_append_of_pos (hindented found),
    takeWhile_reportLines, takeWhile_reportLines, List.append_nil, List.append_nil] at hfront
  rw [hfront] at h
  exact ⟨hfront, List.append_cancel_left h⟩

theorem keys_eq_of_keyLines {keys found : Ordered Nat} (hkeys : ∀ entry ∈ keys, IsWord entry.1)
    (hfound : ∀ entry ∈ found, IsWord entry.1) (h : keys.map keyLine = found.map keyLine) :
    keys = found := by
  have hparts : ∀ keys : Ordered Nat, (∀ entry ∈ keys, IsWord entry.1) →
      (keys.map keyLine).map words = keys.map fun entry => [entry.1, toString entry.2] := by
    intro keys hkeys
    rw [List.map_map]
    exact List.map_congr_left fun entry hentry => words_keyLine (hkeys entry hentry)
  have hall := congrArg (List.map words) h
  rw [hparts keys hkeys, hparts found hfound] at hall
  refine List.map_injective_iff.2 ?_ hall
  rintro ⟨key, n⟩ ⟨other, m⟩ heq
  obtain ⟨rfl, hrest⟩ := List.cons.inj heq
  exact congrArg (Prod.mk key) (toString_inj (List.cons.inj hrest).1)

/-- A tally is read off the lines of its report. -/
theorem IsNamed.reportLines_inj {tally other : Tally} (h : tally.IsNamed) (hother : other.IsNamed)
    (hlines : tally.reportLines = other.reportLines) : tally = other := by
  induction tally generalizing other with
  | nil =>
    cases other with
    | nil => rfl
    | cons line rest => cases hlines
  | cons line rest ih =>
    cases other with
    | nil => cases hlines
    | cons found others =>
      obtain ⟨hline, hrest⟩ := List.forall_mem_cons.1 h
      obtain ⟨hfound, hothers⟩ := List.forall_mem_cons.1 hother
      obtain ⟨hserver, hlater⟩ := List.cons.inj hlines
      have hwords := congrArg words hserver
      rw [words_serverLine hline.1, words_serverLine hfound.1] at hwords
      have hname : line.1 = found.1 := (List.cons.inj (List.cons.inj hwords).2).1
      obtain ⟨hkeys, hlater⟩ := keyLines_append_inj hlater
      rw [Prod.ext hname (keys_eq_of_keyLines hline.2 hfound.2 hkeys), ih hrest hothers hlater]

/-- No text is the report of two tallies. -/
theorem IsNamed.report_inj {tally other : Tally} (h : tally.IsNamed) (hother : other.IsNamed)
    (hreport : tally.report = other.report) : tally = other := by
  have hlines := congrArg (fun text : String => text.toList.splitOn '\n') hreport
  simp only [h.splitOn_report, hother.splitOn_report] at hlines
  have hchars := List.append_cancel_right hlines
  exact h.reportLines_inj hother (List.map_injective_iff.2 (fun _ _ => String.toList_inj.1) hchars)

/-- A tally lists these counts: each server once, and under it each of its keys once, in the order
of their bytes, and a key only if it has a count. -/
structure Lists (tally : Tally) (count : String → String → Nat) : Prop where
  servers : (tally.map fun line => encode line.1).Pairwise (· < ·)
  keys : ∀ line ∈ tally, (line.2.map fun entry => encode entry.1).Pairwise (· < ·)
  used : ∀ line ∈ tally, line.2 ≠ []
  counts : ∀ server key n, (∃ keys, (server, keys) ∈ tally ∧ (key, n) ∈ keys) ↔
    0 < n ∧ count server key = n

theorem IsSound.lists {tally : Tally} (h : tally.IsSound) : tally.Lists tally.count where
  servers := by
    rw [List.pairwise_map]
    exact h.servers.imp encode_lt_encode_iff.2
  keys line hline := by
    rw [List.pairwise_map]
    exact (h.keys _ _ (h.servers.lookup_eq_some_iff.2 hline)).imp encode_lt_encode_iff.2
  used line hline := h.used _ _ (h.servers.lookup_eq_some_iff.2 hline)
  counts server key n := mem_entries.symm.trans (mem_entries_iff h)

/-- **Exact statistics.** The count of a server and a key is the number of datagrams that consist of
these two words. The total is the number of datagrams that are counted, and the sum of the counts.
The report is made of the lines of a listing of the counts. Neither depends on the order of the
datagrams, and two tallies have the same report only if they have the same counts. -/
theorem recordAll_exact (datagrams : List String) :
    let tally := empty.recordAll datagrams
    (∀ server key,
      tally.count server key = datagrams.countP fun text => words text = [server, key]) ∧
    (tally.received = (empty.answers datagrams).count true ∧
      tally.received = (tally.entries.map fun entry => entry.2.2).sum) ∧
    (tally.report.toList.splitOn '\n' = tally.reportLines.map String.toList ++ [[]] ∧
      tally.Lists fun server key => datagrams.countP fun text => words text = [server, key]) ∧
    (∀ others : List String, others.Perm datagrams →
      (empty.recordAll others).received = tally.received ∧
        (empty.recordAll others).report = tally.report) ∧
    ∀ others : List String, (empty.recordAll others).report = tally.report ↔
      ∀ server key, (empty.recordAll others).count server key = tally.count server key := by
  intro tally
  have hsound : tally.IsSound := isSound_recordAll datagrams
  have hcount : tally.count = fun server key =>
      datagrams.countP fun text => words text = [server, key] :=
    funext fun server => funext fun key => count_recordAll datagrams server key
  refine ⟨count_recordAll datagrams, ⟨?counted, received_eq_sum_entries tally⟩,
    ⟨(isNamed_recordAll datagrams).splitOn_report, hcount ▸ hsound.lists⟩, ?order, ?contents⟩
  case counted =>
    rw [received_recordAll]
    exact Nat.zero_add _
  case order =>
    intro others hperm
    rw [recordAll_eq_of_perm hperm]
    exact ⟨rfl, rfl⟩
  case contents =>
    refine fun others => ⟨fun hreport server key => ?_, fun hcounts => ?_⟩
    · rw [(isNamed_recordAll others).report_inj (isNamed_recordAll datagrams) hreport]
    · rw [(isSound_recordAll others).ext hsound hcounts]

/-- Datagrams whose server looks like the start of a line and whose key looks like a count, one that
is not counted, and one with more white space than it needs. -/
def lookalikes : List String := ["a 3", "Server Server", "Server", " Server\t3 ", "a  3"]

/-- Lines for servers and lines for keys are told apart even where names look alike. -/
theorem lookalikes_exact :
    lookalikes.reverse.Perm lookalikes ∧
      (empty.recordAll lookalikes.reverse).report = (empty.recordAll lookalikes).report ∧
      (empty.recordAll lookalikes).report =
        "Server Server\n  3 1\n  Server 1\nServer a\n  3 2\n" ∧
      (empty.recordAll ["a 3"]).report ≠ (empty.recordAll lookalikes).report := by
  obtain ⟨-, -, -, horder, hcontents⟩ := recordAll_exact lookalikes
  have hperm : lookalikes.reverse.Perm lookalikes := List.reverse_perm lookalikes
  refine ⟨hperm, (horder _ hperm).2, by decide +kernel, fun hreport => ?_⟩
  exact absurd ((hcontents _).1 hreport "a" "3") (by decide +kernel)

end Tally

end BrokerCluster.Monitoring
