/-!
# White space and words

A request line is a sequence of words separated by white space. White space is
the Unicode property of that name, so a no-break space separates words and a
zero-width space does not. The lemmas say that words are never empty and never
hold white space.
-/
namespace BrokerCluster.Text

/-- The 25 code points with the Unicode property White_Space. -/
def isBlank (c : Char) : Bool :=
  let n := c.toNat
  (0x09 ≤ n && n ≤ 0x0D) || n == 0x20 || n == 0x85 || n == 0xA0 || n == 0x1680 ||
    (0x2000 ≤ n && n ≤ 0x200A) || n == 0x2028 || n == 0x2029 || n == 0x202F ||
    n == 0x205F || n == 0x3000

/-- The maximal runs of characters without white space, in order. -/
def words (text : String) : List String :=
  ((text.toList.splitOnP isBlank).filter fun run => !run.isEmpty).map String.ofList

def joinWords (ws : List String) : String := " ".intercalate ws

def isBlankText (text : String) : Bool := text.toList.all isBlank

def trim (text : String) : String :=
  String.ofList ((text.toList.dropWhile isBlank).reverse.dropWhile isBlank).reverse

theorem splitOnP_free {α : Type} (p : α → Bool) (xs : List α) :
    ∀ run ∈ xs.splitOnP p, ∀ x ∈ run, p x = false := by
  induction xs with
  | nil => simp [List.splitOnP_nil]
  | cons a rest ih =>
    rw [List.splitOnP_cons_eq_if_modifyHead]
    split
    · intro run hrun
      rcases List.mem_cons.1 hrun with rfl | h
      · simp
      · exact ih run h
    · next ha =>
      cases hs : rest.splitOnP p with
      | nil => simp
      | cons first others =>
        rw [hs] at ih
        intro run hrun x hx
        simp only [List.modifyHead_cons, List.mem_cons] at hrun
        rcases hrun with rfl | h
        · rcases List.mem_cons.1 hx with rfl | hx
          · simpa using ha
          · exact ih first (by simp) x hx
        · exact ih run (by simp [h]) x hx

/-- No word is empty. -/
theorem ne_empty_of_mem_words {text w : String} (h : w ∈ words text) : w ≠ "" := by
  simp only [words, List.mem_map, List.mem_filter] at h
  obtain ⟨run, ⟨_, hne⟩, rfl⟩ := h
  intro he
  have := congrArg String.toList he
  simp_all

/-- No word holds white space. -/
theorem not_blank_of_mem_words {text w : String} (h : w ∈ words text) :
    ∀ c ∈ w.toList, isBlank c = false := by
  simp only [words, List.mem_map, List.mem_filter] at h
  obtain ⟨run, ⟨hrun, _⟩, rfl⟩ := h
  simpa using splitOnP_free isBlank text.toList run hrun

end BrokerCluster.Text
