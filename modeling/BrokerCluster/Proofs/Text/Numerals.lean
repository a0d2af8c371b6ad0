import BrokerCluster.Proofs.Text.Lines

/-!
# Numerals

Which texts are read as a number, and as which one: an optional sign and at least one ASCII
digit, and nothing else. Leading zeros and a needless plus sign make other numerals of the
same number; a numeral that is out of range is read as no number at all.
-/
namespace BrokerCluster.Text

/-- A run of at least one ASCII digit. -/
structure IsDigits (digits : List Char) : Prop where
  ne_nil : digits ≠ []
  isDigit : ∀ c ∈ digits, c.isDigit = true

inductive IsNumeral : List Char → Int → Prop where
  | plain {digits : List Char} :
      IsDigits digits → IsNumeral digits (Nat.ofDigitChars 10 digits 0)
  | plus {digits : List Char} :
      IsDigits digits → IsNumeral ('+' :: digits) (Nat.ofDigitChars 10 digits 0)
  | minus {digits : List Char} :
      IsDigits digits → IsNumeral ('-' :: digits) (-(Nat.ofDigitChars 10 digits 0 : Int))

theorem isDigit_of_digit? {c : Char} {d : Nat} (h : digit? c = some d) : c.isDigit = true := by
  unfold digit? at h
  split at h
  · next hc => simpa [Char.isDigit, Char.le_def] using hc
  · cases h

theorem isDigit_of_digitsAfter {digits : List Char} {value n : Nat}
    (h : digitsAfter value digits = some n) : ∀ c ∈ digits, c.isDigit = true := by
  induction digits generalizing value with
  | nil => exact fun c hc => absurd hc List.not_mem_nil
  | cons c digits ih =>
    obtain ⟨d, hd, hrest⟩ := Option.bind_eq_some_iff.1 h
    exact List.forall_mem_cons.2 ⟨isDigit_of_digit? hd, ih hrest⟩

/-- Leading zeros are allowed, and no other characters than digits are. -/
theorem natural?_eq_some_iff {digits : List Char} {n : Nat} :
    natural? digits = some n ↔ IsDigits digits ∧ Nat.ofDigitChars 10 digits 0 = n := by
  cases digits with
  | nil => exact ⟨fun h => (by cases h), fun h => absurd rfl h.1.ne_nil⟩
  | cons c rest =>
    rw [natural?_cons]
    constructor
    · intro h
      have hdigits := isDigit_of_digitsAfter h
      rw [digitsAfter_of_isDigit hdigits] at h
      exact ⟨⟨List.cons_ne_nil c rest, hdigits⟩, Option.some.inj h⟩
    · rintro ⟨hdigits, rfl⟩
      exact digitsAfter_of_isDigit hdigits.isDigit 0

/-- A sign is no digit. -/
theorem IsDigits.head_isDigit {c : Char} {rest : List Char} (h : IsDigits (c :: rest)) :
    c.isDigit = true := h.isDigit c List.mem_cons_self

/-- An integer is read from its numerals and from no other text. -/
theorem integer?_eq_some_iff {text : List Char} {n : Int} :
    integer? text = some n ↔ IsNumeral text n := by
  constructor
  · intro h
    unfold integer? at h
    split at h
    · next digits =>
      obtain ⟨value, hvalue, rfl⟩ := Option.map_eq_some_iff.1 h
      obtain ⟨hdigits, rfl⟩ := natural?_eq_some_iff.1 hvalue
      exact .plus hdigits
    · next digits =>
      obtain ⟨value, hvalue, rfl⟩ := Option.map_eq_some_iff.1 h
      obtain ⟨hdigits, rfl⟩ := natural?_eq_some_iff.1 hvalue
      exact .minus hdigits
    · obtain ⟨value, hvalue, rfl⟩ := Option.map_eq_some_iff.1 h
      obtain ⟨hdigits, rfl⟩ := natural?_eq_some_iff.1 hvalue
      exact .plain hdigits
  · intro h
    cases h with
    | plain hdigits =>
      have hvalue := natural?_eq_some_iff.2 ⟨hdigits, rfl⟩
      unfold integer?
      split
      · exact absurd hdigits.head_isDigit (by decide)
      · exact absurd hdigits.head_isDigit (by decide)
      · rw [hvalue]
        rfl
    | plus hdigits =>
      rw [integer?, natural?_eq_some_iff.2 ⟨hdigits, rfl⟩]
      rfl
    | minus hdigits =>
      rw [integer?, natural?_eq_some_iff.2 ⟨hdigits, rfl⟩]
      rfl

theorem int64OfInt?_eq_some_iff {value : Int} {n : Int64} :
    int64OfInt? value = some n ↔ value = n.toInt := by
  unfold int64OfInt?
  constructor
  · intro h
    split at h
    · next hrange =>
      obtain rfl := Option.some.inj h
      exact (Int64.toInt_ofInt_of_le hrange.1 (Int.lt_add_one_of_le hrange.2)).symm
    · cases h
  · rintro rfl
    rw [if_pos ⟨n.minValue_le_toInt, n.toInt_le⟩, Int64.ofInt_toInt]

/-- A 64-bit number is read from its numerals and from no other text. -/
theorem readInt64?_eq_some_iff {text : String} {n : Int64} :
    readInt64? text = some n ↔ IsNumeral text.toList n.toInt := by
  rw [readInt64?, Option.bind_eq_some_iff, ← integer?_eq_some_iff]
  constructor
  · rintro ⟨value, hvalue, hn⟩
    rw [hvalue, int64OfInt?_eq_some_iff.1 hn]
  · intro h
    exact ⟨n.toInt, h, int64OfInt?_eq_some_iff.2 rfl⟩

end BrokerCluster.Text
