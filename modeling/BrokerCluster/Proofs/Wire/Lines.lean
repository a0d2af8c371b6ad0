import Mathlib.Data.List.Flatten
import Mathlib.Data.List.Induction
import Mathlib.Data.List.TakeWhile
import BrokerCluster.Proofs.Text.Lines
import BrokerCluster.Proofs.Text.Utf8
import BrokerCluster.Wire.Line

/-!
# Lines that are received as they were sent

A text that is short enough, and holds no line feed and no carriage return at its end,
comes through as one line. Words joined by spaces hold neither, and take no more room
than the line that they are from. A carriage return at the end costs a text no word; a
line feed inside divides its words among lines.
-/
namespace BrokerCluster.Wire

open Text

/-- A text that can be sent as one line. -/
structure IsLine (text : String) : Prop where
  length_le : (encode text).length ≤ lineLimit
  lineFeed_notMem : lineFeed ∉ encode text
  getLast_ne : (encode text).getLast? ≠ some carriageReturn

/-- A line is read as it was written, whatever comes after it. -/
theorem readLine_writeLine {text : String} (h : IsLine text) (rest : List UInt8) :
    readLine (writeLine text ++ rest) = .line text rest := by
  have hsplit : writeLine text ++ rest = encode text ++ lineFeed :: rest := by
    simp [writeLine]
  have hshort : ¬ (encode text).length > lineLimit := Nat.not_lt.2 h.length_le
  rw [hsplit, readLine_append_lineFeed h.lineFeed_notMem, if_neg hshort, lineOfBytes,
    dropCarriageReturn, if_neg h.getLast_ne, decode?_encode]

theorem readLines_nil : readLines [] = ([], none) := by
  rw [readLines]
  have hended : readLine [] = .ended := by simp [readLine]
  split
  · next hline => rw [hended] at hline; cases hline
  · rfl
  · next hfault => rw [hended] at hfault; cases hfault

theorem readLines_of_line {bytes rest : List UInt8} {text : String}
    (h : readLine bytes = .line text rest) :
    readLines bytes = (text :: (readLines rest).1, (readLines rest).2) := by
  rw [readLines]
  split
  · next hline =>
    rw [h] at hline
    cases hline
    rfl
  · next hended => rw [h] at hended; cases hended
  · next hfault => rw [h] at hfault; cases hfault

theorem readLines_of_fault {bytes : List UInt8} {reason : LineFault}
    (h : readLine bytes = .fault reason) : readLines bytes = ([], some reason) := by
  rw [readLines]
  split
  · next hline => rw [h] at hline; cases hline
  · next hended => rw [h] at hended; cases hended
  · next hfault =>
    rw [h] at hfault
    cases hfault
    rfl

/-- Lines are received one by one as they were sent. -/
theorem readLines_writeLines {texts : List String} (h : ∀ text ∈ texts, IsLine text) :
    readLines (writeLines texts) = (texts, none) := by
  induction texts with
  | nil => exact readLines_nil
  | cons text texts ih =>
    have hsplit : writeLines (text :: texts) = writeLine text ++ writeLines texts := rfl
    rw [hsplit, readLines_of_line (readLine_writeLine (h text List.mem_cons_self) _),
      ih fun other hother => h other (List.mem_cons_of_mem _ hother)]

/-- A line that is too long is none. -/
theorem readLine_writeLine_of_long {text : String} (hfeed : lineFeed ∉ encode text)
    (hlong : lineLimit < (encode text).length) (rest : List UInt8) :
    readLine (writeLine text ++ rest) = .fault .tooLong := by
  have hsplit : writeLine text ++ rest = encode text ++ lineFeed :: rest := by
    simp [writeLine]
  rw [hsplit, readLine_append_lineFeed hfeed, if_pos hlong]

/-- Of a line that is too long nothing is received. -/
theorem readLines_writeLine_of_long {text : String} (hfeed : lineFeed ∉ encode text)
    (hlong : lineLimit < (encode text).length) : readLines (writeLine text) = ([], some .tooLong) := by
  have hread := readLine_writeLine_of_long hfeed hlong []
  rw [List.append_nil] at hread
  exact readLines_of_fault hread

/-- No line that is received is longer than the limit. -/
theorem length_encode_le_of_readLine {bytes rest : List UInt8} {text : String}
    (h : readLine bytes = .line text rest) : (encode text).length ≤ lineLimit := by
  have hfront : ∀ {front after : List UInt8}, lineOfBytes front after = .line text rest →
      (encode text).length ≤ front.length := by
    intro front after hline
    unfold lineOfBytes at hline
    split at hline
    · next got hdecode =>
      cases hline
      rw [encode_of_decode? hdecode, dropCarriageReturn]
      split
      · exact List.length_dropLast ▸ Nat.sub_le _ _
      · exact Nat.le_refl _
    · cases hline
  simp only [readLine] at h
  split at h
  · cases h
  · next hshort =>
    have hlimit := Nat.le_of_not_lt hshort
    split at h
    · exact Nat.le_trans (hfront h) hlimit
    · split at h
      · cases h
      · exact Nat.le_trans (hfront h) hlimit

/-- A line that is read ends at a line feed, or else there is nothing after it. -/
theorem exists_front_of_readLine {bytes rest : List UInt8} {text : String}
    (h : readLine bytes = .line text rest) :
    ∃ front, bytes = front ++ rest ∧ (rest = [] ∨ ∀ more, hasLine (front ++ more) = true ∧
      readLine (front ++ more) = .line text more) := by
  by_cases hfeed : lineFeed ∈ bytes
  · obtain ⟨front, after, rfl, hfront⟩ := List.eq_append_cons_of_mem hfeed
    rw [readLine_append_lineFeed hfront, lineOfBytes] at h
    split at h
    · cases h
    · next hshort =>
      split at h
      · next hdecode =>
        cases h
        refine ⟨front ++ [lineFeed], by simp, .inr fun more => ⟨by simp [hasLine], ?_⟩⟩
        rw [List.append_assoc, List.singleton_append, readLine_append_lineFeed hfront,
          if_neg hshort, lineOfBytes, hdecode]
      · cases h
  · have hnone : bytes.dropWhile (· != lineFeed) = [] :=
      List.dropWhile_eq_nil_iff.2 (bne_lineFeed hfeed)
    have hrest : rest = [] := by
      simp only [readLine, hnone, lineOfBytes] at h
      split at h
      · cases h
      · split at h
        · cases h
        · split at h
          · cases h
            rfl
          · cases h
    exact ⟨bytes, by simp [hrest], .inl hrest⟩

/-- Fewer bytes make no line. -/
theorem hasLine_of_sublist {bytes more : List UInt8} (h : bytes.Sublist more)
    (hline : hasLine bytes = true) : hasLine more = true := by
  rw [hasLine, Bool.or_eq_true] at hline ⊢
  refine hline.imp (fun hfeed => ?_) fun hlong => ?_
  · exact List.contains_iff_mem.2 (h.subset (List.contains_iff_mem.1 hfeed))
  · have hlength := h.length_le
    simp only [decide_eq_true_eq] at hlong ⊢
    omega

/-- Words and single spaces are all that a line of words holds. -/
theorem mem_joinWords {ws : List String} {c : Char} (h : c ∈ (joinWords ws).toList) :
    c = ' ' ∨ ∃ w ∈ ws, c ∈ w.toList := by
  induction ws with
  | nil => simp [joinWords] at h
  | cons first rest ih =>
    cases rest with
    | nil =>
      rw [joinWords, String.intercalate_singleton] at h
      exact .inr ⟨first, List.mem_cons_self, h⟩
    | cons next rest =>
      rw [joinWords, String.intercalate_cons_cons, String.toList_append, String.toList_append,
        List.mem_append, List.mem_append] at h
      rcases h with (hfirst | hspace) | hrest
      · exact .inr ⟨first, List.mem_cons_self, hfirst⟩
      · have hlist : " ".toList = [' '] := by decide
        rw [hlist] at hspace
        exact .inl (List.mem_singleton.1 hspace)
      · rcases ih hrest with hspace | ⟨w, hw, hc⟩
        · exact .inl hspace
        · exact .inr ⟨w, List.mem_cons_of_mem _ hw, hc⟩

/-- No byte of a line of words ends a line, or is dropped at the end of one. -/
theorem notMem_encode_joinWords {ws : List String} (h : ∀ w ∈ ws, IsWord w) {b : UInt8}
    (hb : 9 ≤ b.toNat ∧ b.toNat ≤ 13) : b ∉ encode (joinWords ws) := by
  intro hmem
  obtain ⟨c, hc, hcode⟩ := exists_char_of_mem_encode hmem (by omega)
  rcases mem_joinWords hc with rfl | ⟨w, hw, hmemWord⟩
  · have hspace : ' '.toNat = 32 := rfl
    omega
  · have hnot := (h w hw).not_blank c hmemWord
    have hblank : isBlank c = true := by
      simp [isBlank]
      omega
    rw [hnot] at hblank
    cases hblank

/-- Words make a line if they are not too long together. -/
theorem isLine_joinWords {ws : List String} (h : ∀ w ∈ ws, IsWord w)
    (hshort : (encode (joinWords ws)).length ≤ lineLimit) : IsLine (joinWords ws) where
  length_le := hshort
  lineFeed_notMem := notMem_encode_joinWords h (by decide)
  getLast_ne := fun hlast =>
    notMem_encode_joinWords h (by decide) (List.mem_of_getLast? hlast)

theorem joinWords_cons (first : String) {rest : List String} (h : rest ≠ []) :
    joinWords (first :: rest) = first ++ " " ++ joinWords rest :=
  String.intercalate_cons_of_ne_nil h

theorem joinWords_pair (first second : String) :
    joinWords [first, second] = first ++ " " ++ second := by
  rw [joinWords_cons first (List.cons_ne_nil second []), joinWords, String.intercalate_singleton]

theorem isLine_of_isWord {text : String} (h : IsWord text)
    (hshort : (encode text).length ≤ lineLimit) : IsLine text := by
  have hjoin : joinWords [text] = text := String.intercalate_singleton
  have hline := isLine_joinWords (List.forall_mem_singleton.2 h) (by rwa [hjoin])
  rwa [hjoin] at hline

theorem isWord_of_mem_words {text w : String} (h : w ∈ words text) : IsWord w :=
  ⟨ne_empty_of_mem_words h, not_blank_of_mem_words h⟩

theorem sublist_of_mem_splitOnP {p : Char → Bool} {chars run : List Char}
    (h : run ∈ chars.splitOnP p) : run.Sublist chars := by
  induction chars generalizing run with
  | nil =>
    rw [List.splitOnP_nil] at h
    exact List.mem_singleton.1 h ▸ List.Sublist.refl _
  | cons c rest ih =>
    rw [List.splitOnP_cons_eq_if_modifyHead] at h
    split at h
    · rcases List.mem_cons.1 h with rfl | hrun
      · exact List.nil_sublist _
      · exact (ih hrun).cons c
    · cases hruns : rest.splitOnP p with
      | nil =>
        rw [hruns] at h
        cases h
      | cons first others =>
        rw [hruns] at h ih
        rcases List.mem_cons.1 h with rfl | hrun
        · exact (ih List.mem_cons_self).cons_cons c
        · exact (ih (List.mem_cons_of_mem _ hrun)).cons c

theorem length_encode_pos {text : String} (h : IsWord text) : 0 < (encode text).length := by
  refine List.length_pos_iff.2 fun hnil => h.ne_empty (String.toList_eq_nil_iff.1 ?_)
  have hbytes := List.flatMap_eq_nil_iff.1 hnil
  exact List.eq_nil_iff_forall_not_mem.2 fun c hc => String.utf8EncodeChar_ne_nil (hbytes c hc)

/-- A line is at least as long as each of its words. -/
theorem length_encode_le_of_mem_words {text w : String} (h : w ∈ words text) :
    (encode w).length ≤ (encode text).length := by
  obtain ⟨run, hrun, rfl⟩ := List.mem_map.1 h
  have hsub := sublist_of_mem_splitOnP (List.mem_filter.1 hrun).1
  rw [encode, String.toList_ofList]
  exact (hsub.flatMap String.utf8EncodeChar).length_le

theorem length_writeLine (text : String) : (writeLine text).length = (encode text).length + 1 :=
  List.length_append

/-- A space takes as many bytes as the end of a line. -/
theorem length_writeLine_joinWords {ws : List String} (h : ws ≠ []) :
    (writeLine (joinWords ws)).length = (writeLines ws).length := by
  induction ws with
  | nil => exact absurd rfl h
  | cons first rest ih =>
    have hcons : writeLines (first :: rest) = writeLine first ++ writeLines rest := rfl
    cases rest with
    | nil =>
      rw [joinWords, String.intercalate_singleton, hcons]
      exact (congrArg List.length (List.append_nil _)).symm
    | cons next rest =>
      have hspace : (encode " ").length = 1 := by decide
      have hrest := ih (List.cons_ne_nil next rest)
      rw [length_writeLine] at hrest
      rw [hcons, List.length_append, ← hrest, length_writeLine, length_writeLine,
        joinWords_cons first (List.cons_ne_nil next rest), encode_append, encode_append,
        List.length_append, List.length_append, hspace]
      omega

theorem length_flatMap_splitOnP_le (chars : List Char) :
    ((chars.splitOnP isBlank).flatMap fun run => writeLine (String.ofList run)).length ≤
      (writeLine (String.ofList chars)).length := by
  induction chars with
  | nil => simp
  | cons c rest ih =>
    have hpositive := List.length_pos_iff.2 (String.utf8EncodeChar_ne_nil (c := c))
    have hcons : ∀ run : List Char, (writeLine (String.ofList (c :: run))).length =
        (String.utf8EncodeChar c).length + (writeLine (String.ofList run)).length := by
      simp [length_writeLine, encode, Nat.add_assoc]
    rw [List.splitOnP_cons_eq_if_modifyHead, hcons]
    split
    · have hempty : (writeLine (String.ofList [])).length = 1 := by decide
      rw [List.flatMap_cons, List.length_append, hempty]
      omega
    · cases hruns : rest.splitOnP isBlank with
      | nil => exact absurd hruns (List.splitOnP_ne_nil _ _)
      | cons first others =>
        rw [hruns, List.flatMap_cons, List.length_append] at ih
        rw [List.modifyHead_cons, List.flatMap_cons, List.length_append, hcons]
        omega

/-- A line has room for its words and a byte behind each. -/
theorem length_writeLines_words_le (text : String) :
    (writeLines (words text)).length ≤ (writeLine text).length := by
  have hruns := length_flatMap_splitOnP_le text.toList
  rw [String.ofList_toList] at hruns
  have hkept : (((text.toList.splitOnP isBlank).filter fun run => !run.isEmpty).flatMap
      fun run => writeLine (String.ofList run)).Sublist
      ((text.toList.splitOnP isBlank).flatMap fun run => writeLine (String.ofList run)) :=
    List.filter_sublist.flatMap _
  rw [writeLines, words, List.flatMap_map]
  exact Nat.le_trans hkept.length_le hruns

theorem lineFeed_notMem_encode {text : String} (h : '\n' ∉ text.toList) :
    lineFeed ∉ encode text := by
  intro hmem
  obtain ⟨c, hc, hcode⟩ := exists_char_of_mem_encode hmem (by decide)
  have hfeed : c = '\n' := Char.toNat_inj.1 hcode
  exact h (hfeed ▸ hc)

/-- A carriage return that is dropped was none of the words. -/
theorem exists_dropCarriageReturn (text : String) :
    ∃ got, dropCarriageReturn (encode text) = encode got ∧ words got = words text := by
  by_cases hlast : (encode text).getLast? = some carriageReturn
  · rw [dropCarriageReturn, if_pos hlast]
    cases hchars : text.toList using List.reverseRecOn with
    | nil => simp [encode, hchars] at hlast
    | append_singleton init c =>
      have hencode : encode text = encode (String.ofList init) ++ String.utf8EncodeChar c := by
        simp [encode, hchars]
      have hreturn : c = '\r' := by
        rw [hencode, List.getLast?_append,
          List.getLast?_eq_some_getLast String.utf8EncodeChar_ne_nil, Option.some_or] at hlast
        have hmem : carriageReturn ∈ String.utf8EncodeChar c :=
          Option.some.inj hlast ▸ List.getLast_mem String.utf8EncodeChar_ne_nil
        exact Char.toNat_inj.1 (toNat_eq_of_mem_utf8EncodeChar hmem (by decide))
      have hbytes : String.utf8EncodeChar '\r' = [carriageReturn] := by decide
      refine ⟨String.ofList init, ?_, ?_⟩
      · rw [hencode, hreturn, hbytes, List.dropLast_concat]
      · have hsplit : text.toList = (String.ofList init).toList ++ '\r' :: "".toList := by
          rw [hchars, hreturn, String.toList_ofList]
          rfl
        rw [words_of_toList_eq (by decide) hsplit]
        exact (List.append_nil _).symm
  · exact ⟨text, by rw [dropCarriageReturn, if_neg hlast], rfl⟩

/-- A text without a line feed comes through with its words. -/
theorem exists_readLine_writeLine {text : String} (hfeed : '\n' ∉ text.toList)
    (hshort : (encode text).length ≤ lineLimit) (rest : List UInt8) :
    ∃ got, readLine (writeLine text ++ rest) = .line got rest ∧ words got = words text := by
  obtain ⟨got, hdrop, hwords⟩ := exists_dropCarriageReturn text
  have hsplit : writeLine text ++ rest = encode text ++ lineFeed :: rest := by
    simp [writeLine]
  refine ⟨got, ?_, hwords⟩
  rw [hsplit, readLine_append_lineFeed (lineFeed_notMem_encode hfeed), if_neg (Nat.not_lt.2 hshort),
    lineOfBytes, hdrop, decode?_encode]

theorem readLines_writeLine_of_no_lineFeed {text : String} (hfeed : '\n' ∉ text.toList)
    (hshort : (encode text).length ≤ lineLimit) :
    ∃ got, readLines (writeLine text) = ([got], none) ∧ words got = words text := by
  obtain ⟨got, hread, hwords⟩ := exists_readLine_writeLine hfeed hshort []
  rw [List.append_nil] at hread
  exact ⟨got, by rw [readLines_of_line hread, readLines_nil], hwords⟩

/-- A line feed inside a text divides what comes through of it. -/
theorem mem_readLines_writeLine {text first second line : String} (hfirst : '\n' ∉ first.toList)
    (htext : text.toList = first.toList ++ '\n' :: second.toList)
    (h : line ∈ (readLines (writeLine text)).1) :
    words line = words first ∨ line ∈ (readLines (writeLine second)).1 := by
  have hfeed : String.utf8EncodeChar '\n' = [lineFeed] := by decide
  have hbytes : writeLine text = writeLine first ++ writeLine second := by
    simp [writeLine, encode, htext, hfeed]
  rw [hbytes] at h
  by_cases hshort : (encode first).length ≤ lineLimit
  · obtain ⟨got, hread, hwords⟩ := exists_readLine_writeLine hfirst hshort (writeLine second)
    rw [readLines_of_line hread] at h
    rcases List.mem_cons.1 h with rfl | hlater
    · exact .inl hwords
    · exact .inr hlater
  · have hread := readLine_writeLine_of_long (lineFeed_notMem_encode hfirst)
      (Nat.lt_of_not_le hshort) (writeLine second)
    rw [readLines_of_fault hread] at h
    cases h

/-- No line that comes through of a text has more words than the text. -/
theorem length_words_le_of_mem_readLines {text line : String}
    (h : line ∈ (readLines (writeLine text)).1) : (words line).length ≤ (words text).length := by
  induction hn : text.toList.length using Nat.strongRecOn generalizing text with
  | _ n ih =>
  by_cases hfeed : '\n' ∈ text.toList
  · obtain ⟨front, rest, hchars, hfront⟩ := List.eq_append_cons_of_mem hfeed
    have htext : text.toList =
        (String.ofList front).toList ++ '\n' :: (String.ofList rest).toList := by
      simpa using hchars
    have hfirst : '\n' ∉ (String.ofList front).toList := by simpa using hfront
    rw [words_of_toList_eq (by decide) htext, List.length_append]
    rcases mem_readLines_writeLine hfirst htext h with hline | hline
    · rw [hline]
      exact Nat.le_add_right _ _
    · have hshorter : (String.ofList rest).toList.length < n := by
        rw [← hn, htext, List.length_append, List.length_cons]
        omega
      exact Nat.le_trans (ih _ hshorter hline rfl) (Nat.le_add_left _ _)
  · by_cases hshort : (encode text).length ≤ lineLimit
    · obtain ⟨got, hlines, hwords⟩ := readLines_writeLine_of_no_lineFeed hfeed hshort
      rw [hlines] at h
      obtain rfl := List.mem_singleton.1 h
      exact Nat.le_of_eq (congrArg List.length hwords)
    · rw [readLines_writeLine_of_long (lineFeed_notMem_encode hfeed) (Nat.lt_of_not_le hshort)] at h
      cases h

end BrokerCluster.Wire
