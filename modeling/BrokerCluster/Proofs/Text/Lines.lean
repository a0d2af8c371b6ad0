import BrokerCluster.Text.Number
import BrokerCluster.Text.Words

/-!
# Lines that are read back as they were written

Words joined by single spaces are those words again, white space divides the words of
a text, and a text that is trimmed to a word has no other. The decimal text of a 64-bit
number is a word that reads as the number.
-/
namespace BrokerCluster.Text

/-- A text that is one word: not empty, and without white space. -/
structure IsWord (text : String) : Prop where
  ne_empty : text ≠ ""
  not_blank : ∀ c ∈ text.toList, isBlank c = false

instance (text : String) : Decidable (IsWord text) :=
  decidable_of_iff (text ≠ "" ∧ text.toList.all fun c => !isBlank c)
    ⟨fun h => ⟨h.1, by simpa using h.2⟩, fun h => ⟨h.ne_empty, by simpa using h.not_blank⟩⟩

theorem splitOnP_intercalate (runs : List (List Char)) (hne : runs ≠ [])
    (h : ∀ run ∈ runs, ∀ c ∈ run, isBlank c = false) :
    ([' '].intercalate runs).splitOnP isBlank = runs := by
  induction runs with
  | nil => exact absurd rfl hne
  | cons run runs ih =>
    have hrun : ∀ c ∈ run, isBlank c = false := h run (by simp)
    cases runs with
    | nil => simpa [List.intercalate] using List.splitOnP_eq_singleton hrun
    | cons next runs =>
      have hjoin : [' '].intercalate (run :: next :: runs) =
          run ++ ' ' :: [' '].intercalate (next :: runs) := by
        simp [List.intercalate, List.intersperse]
      have hblank : isBlank ' ' = true := by decide
      rw [hjoin, List.splitOnP_append_cons_of_forall_mem hrun ' ' hblank,
        ih (by simp) fun r hr => h r (by simp [hr])]

/-- Joining words and cutting the line again gives the words. -/
theorem words_joinWords {ws : List String} (h : ∀ w ∈ ws, IsWord w) :
    words (joinWords ws) = ws := by
  cases hws : ws with
  | nil => rfl
  | cons first rest =>
    rw [← hws]
    have hruns : ([' '].intercalate (ws.map String.toList)).splitOnP isBlank =
        ws.map String.toList := by
      refine splitOnP_intercalate _ (by simp [hws]) fun run hrun => ?_
      obtain ⟨w, hw, rfl⟩ := List.mem_map.1 hrun
      exact (h w hw).not_blank
    have hfilter : (ws.map String.toList).filter (fun run => !run.isEmpty) =
        ws.map String.toList := by
      refine List.filter_eq_self.2 fun run hrun => ?_
      obtain ⟨w, hw, rfl⟩ := List.mem_map.1 hrun
      have hne := (h w hw).ne_empty
      simpa using hne
    have hspace : " ".toList = [' '] := by decide
    rw [words, joinWords, String.toList_intercalate, hspace, hruns, hfilter]
    simp [Function.comp_def]

/-- White space between two texts divides their words. -/
theorem words_of_toList_eq {text first second : String} {c : Char} (hc : isBlank c = true)
    (h : text.toList = first.toList ++ c :: second.toList) :
    words text = words first ++ words second := by
  rw [words, h, List.splitOnP_append_cons _ _ hc, List.filter_append, List.map_append]
  rfl

theorem words_append_space (first second : String) :
    words (first ++ " " ++ second) = words first ++ words second := by
  have hsplit : (first ++ " " ++ second).toList = first.toList ++ ' ' :: second.toList := by simp
  exact words_of_toList_eq (by decide) hsplit

theorem words_of_isWord {w : String} (h : IsWord w) : words w = [w] := by
  have hone : joinWords [w] = w := String.intercalate_singleton
  have hwords := words_joinWords (List.forall_mem_singleton.2 h)
  rwa [hone] at hwords

theorem words_empty : words "" = [] := rfl

/-- White space at the beginning of a text is between words, or before them all. -/
theorem words_blank_append {blank text : List Char} (h : ∀ c ∈ blank, isBlank c = true) :
    words (String.ofList (blank ++ text)) = words (String.ofList text) := by
  induction blank with
  | nil => rfl
  | cons c blank ih =>
    obtain ⟨hc, hblank⟩ := List.forall_mem_cons.1 h
    have hsplit : (String.ofList (c :: (blank ++ text))).toList =
        "".toList ++ c :: (String.ofList (blank ++ text)).toList := by simp
    rw [List.cons_append, words_of_toList_eq hc hsplit, words_empty, List.nil_append]
    exact ih hblank

theorem words_append_blank {blank text : List Char} (h : ∀ c ∈ blank, isBlank c = true) :
    words (String.ofList (text ++ blank)) = words (String.ofList text) := by
  cases blank with
  | nil => rw [List.append_nil]
  | cons c blank =>
    obtain ⟨hc, hblank⟩ := List.forall_mem_cons.1 h
    have hsplit : (String.ofList (text ++ c :: blank)).toList =
        (String.ofList text).toList ++ c :: (String.ofList blank).toList := by simp
    have hnone : words (String.ofList blank) = [] := by
      rw [← List.append_nil blank, words_blank_append hblank, String.ofList_nil]
      rfl
    rw [words_of_toList_eq hc hsplit, hnone, List.append_nil]

theorem isBlank_of_words_eq_nil {text : String} (h : words text = []) :
    ∀ c ∈ text.toList, isBlank c = true := by
  have hruns : ∀ run ∈ text.toList.splitOnP isBlank, run = [] := by
    simpa [words, List.filter_eq_nil_iff] using h
  generalize text.toList = chars at hruns
  induction chars with
  | nil => exact List.forall_mem_nil _
  | cons first rest ih =>
    rw [List.splitOnP_cons_eq_if_modifyHead] at hruns
    split at hruns
    · next hfirst =>
      exact List.forall_mem_cons.2 ⟨hfirst, ih (List.forall_mem_cons.1 hruns).2⟩
    -- Otherwise the first run holds the first character.
    · obtain ⟨run, others, hsplit⟩ := List.exists_cons_of_ne_nil (List.splitOnP_ne_nil isBlank rest)
      rw [hsplit] at hruns
      exact absurd (hruns _ List.mem_cons_self) (List.cons_ne_nil _ _)

/-- What is trimmed off a text is white space. -/
theorem exists_toList_eq_trim (text : String) : ∃ lead trail,
    text.toList = lead ++ ((trim text).toList ++ trail) ∧ (∀ c ∈ lead, isBlank c = true) ∧
      ∀ c ∈ trail, isBlank c = true := by
  have hblank : ∀ chars : List Char, ∀ c ∈ chars.takeWhile isBlank, isBlank c = true :=
    fun _ => List.all_eq_true.1 List.all_takeWhile
  let rest := text.toList.dropWhile isBlank
  have hrest : (trim text).toList ++ (rest.reverse.takeWhile isBlank).reverse = rest := by
    rw [trim, String.toList_ofList, ← List.reverse_append, List.takeWhile_append_dropWhile,
      List.reverse_reverse]
  refine ⟨text.toList.takeWhile isBlank, (rest.reverse.takeWhile isBlank).reverse, ?_, hblank _,
    fun c hc => hblank _ c (List.mem_reverse.1 hc)⟩
  rw [hrest, List.takeWhile_append_dropWhile]

theorem words_trim (text : String) : words (trim text) = words text := by
  obtain ⟨lead, trail, htext, hlead, htrail⟩ := exists_toList_eq_trim text
  have hwords : words (String.ofList text.toList) = words (String.ofList (trim text).toList) := by
    rw [htext, words_blank_append hlead, words_append_blank htrail]
  rw [String.ofList_toList, String.ofList_toList] at hwords
  exact hwords.symm

/-- Nothing is left of a text that is trimmed if it is all white space. -/
theorem isBlankText_iff_trim {text : String} : isBlankText text = true ↔ trim text = "" := by
  rw [isBlankText, List.all_eq_true]
  constructor
  · intro hblank
    have hnil : (text.toList ++ []).dropWhile isBlank = [] := List.dropWhile_append_of_pos hblank
    rw [List.append_nil] at hnil
    rw [trim, hnil]
    rfl
  · intro htrim
    refine isBlank_of_words_eq_nil ?_
    rw [← words_trim, htrim, words_empty]

/-- A text that does not begin with white space begins with its first word. -/
theorem exists_words_eq_cons {first : Char} {chars : List Char} (hfirst : isBlank first = false) :
    ∃ run rest, first :: chars = run ++ rest ∧
      words (String.ofList (first :: chars)) = String.ofList run :: words (String.ofList rest) := by
  have hone : ∀ run : List Char, first ∈ run → (∀ c ∈ run, isBlank c = false) →
      words (String.ofList run) = [String.ofList run] := fun run hmem hrun =>
    words_of_isWord ⟨fun hempty => List.ne_nil_of_mem hmem (by simpa using hempty), by simpa using hrun⟩
  cases hfind : (first :: chars).find? isBlank with
  | none =>
    exact ⟨first :: chars, [], (List.append_nil _).symm,
      hone _ List.mem_cons_self (by simpa using hfind)⟩
  | some c =>
    obtain ⟨hc, run, rest, hchars, hrun⟩ := List.find?_eq_some_iff_append.1 hfind
    have hmem : first ∈ run := by
      cases run with
      | nil =>
        rw [(List.cons.inj hchars).1, hc] at hfirst
        cases hfirst
      | cons other run => exact (List.cons.inj hchars).1 ▸ List.mem_cons_self
    have hsplit : (String.ofList (first :: chars)).toList =
        (String.ofList run).toList ++ c :: (String.ofList rest).toList := by simp [hchars]
    have hrest : words (String.ofList ([c] ++ rest)) = words (String.ofList rest) :=
      words_blank_append (List.forall_mem_singleton.2 hc)
    refine ⟨run, [c] ++ rest, hchars, ?_⟩
    rw [words_of_toList_eq hc hsplit, hone run hmem (by simpa using hrun), hrest]
    rfl

/-- A text with one word is that word with white space around it. -/
theorem exists_eq_of_words {chars : List Char} {word : String}
    (h : words (String.ofList chars) = [word]) : ∃ lead trail,
      chars = lead ++ (word.toList ++ trail) ∧ (∀ c ∈ lead, isBlank c = true) ∧
        ∀ c ∈ trail, isBlank c = true := by
  induction chars with
  | nil => cases h
  | cons first chars ih =>
    cases hfirst : isBlank first with
    | true =>
      have hrest : words (String.ofList ([first] ++ chars)) = words (String.ofList chars) :=
        words_blank_append (List.forall_mem_singleton.2 hfirst)
      obtain ⟨lead, trail, rfl, hlead, htrail⟩ := ih (hrest.symm.trans h)
      exact ⟨first :: lead, trail, rfl, List.forall_mem_cons.2 ⟨hfirst, hlead⟩, htrail⟩
    | false =>
      obtain ⟨run, rest, hchars, hwords⟩ := exists_words_eq_cons hfirst
      obtain ⟨hword, hrest⟩ := List.cons.inj (hwords.symm.trans h)
      refine ⟨[], rest, ?_, List.forall_mem_nil _, fun c hc => ?_⟩
      · rw [hchars, ← hword, String.toList_ofList, List.nil_append]
      · exact isBlank_of_words_eq_nil hrest c (by simpa using hc)

theorem dropWhile_isBlank {blank word rest : List Char} (hblank : ∀ c ∈ blank, isBlank c = true)
    (hword : ∀ c ∈ word, isBlank c = false) (hne : word ≠ []) :
    (blank ++ (word ++ rest)).dropWhile isBlank = word ++ rest := by
  rw [List.dropWhile_append_of_pos hblank]
  obtain ⟨c, more, rfl⟩ := List.exists_cons_of_ne_nil hne
  exact List.dropWhile_cons_of_neg (by simp [hword c List.mem_cons_self])

theorem trim_eq_of_toList_eq {text word : String} {lead trail : List Char}
    (htext : text.toList = lead ++ (word.toList ++ trail)) (hlead : ∀ c ∈ lead, isBlank c = true)
    (htrail : ∀ c ∈ trail, isBlank c = true) (hword : IsWord word) : trim text = word := by
  have hne : word.toList ≠ [] := by simpa using hword.ne_empty
  have hback : (trail.reverse ++ (word.toList.reverse ++ [])).dropWhile isBlank =
      word.toList.reverse ++ [] :=
    dropWhile_isBlank (by simpa using htrail) (by simpa using hword.not_blank) (by simpa using hne)
  rw [List.append_nil] at hback
  rw [trim, htext, dropWhile_isBlank hlead hword.not_blank hne, List.reverse_append, hback,
    List.reverse_reverse, String.ofList_toList]

/-- A text is trimmed to a word if that is the only word in it. -/
theorem trim_eq_iff {text word : String} (hword : IsWord word) :
    trim text = word ↔ words text = [word] := by
  constructor
  · intro htrim
    rw [← words_trim, htrim, words_of_isWord hword]
  · intro hwords
    rw [← String.ofList_toList (s := text)] at hwords
    obtain ⟨lead, trail, htext, hlead, htrail⟩ := exists_eq_of_words hwords
    exact trim_eq_of_toList_eq htext hlead htrail hword

theorem digit?_of_isDigit {c : Char} (h : c.isDigit = true) :
    digit? c = some (c.toNat - '0'.toNat) := by
  have hc : '0' ≤ c ∧ c ≤ '9' := by
    simpa [Char.isDigit, Char.le_def] using h
  rw [digit?, if_pos hc]

theorem digitsAfter_of_isDigit {digits : List Char} (h : ∀ c ∈ digits, c.isDigit = true)
    (value : Nat) : digitsAfter value digits = some (Nat.ofDigitChars 10 digits value) := by
  induction digits generalizing value with
  | nil => simp [digitsAfter]
  | cons c digits ih =>
    rw [digitsAfter, digit?_of_isDigit (h c (by simp)), Option.bind_some,
      ih (fun d hd => h d (by simp [hd])), Nat.ofDigitChars_cons]

theorem natural?_toDigits (n : Nat) : natural? (Nat.toDigits 10 n) = some n := by
  have hdigits : ∀ c ∈ Nat.toDigits 10 n, c.isDigit = true :=
    fun c hc => Nat.isDigit_of_mem_toDigits (by decide) (by decide) hc
  have hvalue := digitsAfter_of_isDigit hdigits 0
  rw [Nat.ofDigitChars_ten_toDigits] at hvalue
  cases he : Nat.toDigits 10 n with
  | nil => exact absurd he Nat.toDigits_ne_nil
  | cons c digits => rwa [natural?_cons, ← he]

theorem isDigit_of_mem_toDigits {n : Nat} {c : Char} (h : c ∈ Nat.toDigits 10 n) :
    c.isDigit = true := Nat.isDigit_of_mem_toDigits (by decide) (by decide) h

/-- The first digit of a number is no sign. -/
theorem integer?_toDigits (n : Nat) : integer? (Nat.toDigits 10 n) = some (n : Int) := by
  unfold integer?
  split
  · next digits he =>
    have hplus : '+'.isDigit = true := isDigit_of_mem_toDigits (n := n) (by simp [he])
    exact absurd hplus (by decide)
  · next digits he =>
    have hminus : '-'.isDigit = true := isDigit_of_mem_toDigits (n := n) (by simp [he])
    exact absurd hminus (by decide)
  · rw [natural?_toDigits]
    rfl

theorem toList_int64Text (n : Int64) :
    (int64Text n).toList =
      if 0 ≤ n.toInt then Nat.toDigits 10 n.toInt.toNat
      else '-' :: Nat.toDigits 10 (-n.toInt).toNat := by
  rw [int64Text, Int.toString_eq_repr, Int.repr_eq_if]
  split
  · exact Nat.toList_repr
  · rw [String.toList_append, Nat.toList_repr]
    rfl

/-- Numbers are read back as they were written. -/
theorem integer?_int64Text (n : Int64) : integer? (int64Text n).toList = some n.toInt := by
  rw [toList_int64Text]
  split
  · next h => rw [integer?_toDigits, Int.toNat_of_nonneg h]
  · next h =>
    have hneg : 0 ≤ -n.toInt := by omega
    simp only [integer?, natural?_toDigits, Option.map_some, Int.ofNat_eq_natCast]
    rw [Int.toNat_of_nonneg hneg, Int.neg_neg]

/-- The text of a number reads as the number. -/
theorem readInt64?_int64Text (n : Int64) : readInt64? (int64Text n) = some n := by
  rw [readInt64?, integer?_int64Text, Option.bind_some, int64OfInt?,
    if_pos ⟨n.minValue_le_toInt, n.toInt_le⟩, Int64.ofInt_toInt]

theorem isBlank_of_isDigit {c : Char} (h : c.isDigit = true) : isBlank c = false := by
  have hc : 48 ≤ c.toNat ∧ c.toNat ≤ 57 := by
    simpa [Char.isDigit, Char.le_def, UInt32.le_iff_toNat_le] using h
  simp [isBlank]
  omega

theorem toList_toString (n : Nat) : (toString n).toList = Nat.toDigits 10 n := Nat.toList_repr

theorem toString_inj {n m : Nat} (h : toString n = toString m) : n = m := by
  have hdigits := congrArg (fun text : String => natural? text.toList) h
  simp only [toList_toString, natural?_toDigits] at hdigits
  exact Option.some.inj hdigits

theorem isWord_toString (n : Nat) : IsWord (toString n) where
  ne_empty := by
    intro hempty
    have hdigits := toList_toString n
    rw [hempty] at hdigits
    exact Nat.toDigits_ne_nil hdigits.symm
  not_blank := by
    intro c hc
    rw [toList_toString] at hc
    exact isBlank_of_isDigit (isDigit_of_mem_toDigits hc)

theorem isWord_int64Text (n : Int64) : IsWord (int64Text n) where
  ne_empty := by
    intro he
    have hnil : (int64Text n).toList = [] := by rw [he]; rfl
    rw [toList_int64Text] at hnil
    split at hnil
    · exact Nat.toDigits_ne_nil hnil
    · cases hnil
  not_blank := by
    intro c hc
    rw [toList_int64Text] at hc
    split at hc
    · exact isBlank_of_isDigit (isDigit_of_mem_toDigits hc)
    · rcases List.mem_cons.1 hc with rfl | hc
      · decide
      · exact isBlank_of_isDigit (isDigit_of_mem_toDigits hc)

end BrokerCluster.Text
