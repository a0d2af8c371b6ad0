import BrokerCluster.Text.Utf8

/-!
# Text that is decoded as it was encoded

Each character is encoded in one to four bytes, by the size of its code. Decoding tells
these apart by the first byte, and the bytes that follow carry six bits each. The byte
after the first one is what keeps every code to one encoding, so bytes that decode are
the bytes of their text. A character that is cut apart is read as one fault.
-/
namespace BrokerCluster.Text

theorem toNat_ofNat_byte {n : Nat} (h : n < 256) : (UInt8.ofNat n).toNat = n := by
  simp
  omega

/-- A byte that follows the first one of an encoding, and the six bits that it carries. -/
def tailByte (n : Nat) : UInt8 := UInt8.ofNat (n % 64 + 128)

theorem toNat_tailByte (n : Nat) : (tailByte n).toNat = n % 64 + 128 :=
  toNat_ofNat_byte (by omega)

theorem tailBits_tailByte (n : Nat) : tailBits (tailByte n) = n % 64 := by
  rw [tailBits, toNat_tailByte]
  omega

theorem ofNat_eq_iff {n m : Nat} (hn : n < 256) (hm : m < 256) :
    (UInt8.ofNat n == UInt8.ofNat m) = true ↔ n = m := by
  rw [beq_iff_eq, ← UInt8.toNat_inj, toNat_ofNat_byte hn, toNat_ofNat_byte hm]

theorem ofNat_lt_iff {n bound : Nat} (hn : n < 256) (hbound : bound < 256) :
    UInt8.ofNat n < UInt8.ofNat bound ↔ n < bound := by
  rw [UInt8.lt_iff_toNat_lt, toNat_ofNat_byte hn, toNat_ofNat_byte hbound]

theorem ofNat_between_iff {n low high : Nat} (hn : n < 256) (hlow : low < 256) (hhigh : high < 256) :
    UInt8.ofNat low ≤ UInt8.ofNat n ∧ UInt8.ofNat n ≤ UInt8.ofNat high ↔ low ≤ n ∧ n ≤ high := by
  rw [UInt8.le_iff_toNat_le, UInt8.le_iff_toNat_le, toNat_ofNat_byte hn, toNat_ofNat_byte hlow,
    toNat_ofNat_byte hhigh]

theorem tailByte_between {n low high : Nat} (hlow : low ≤ n % 64 + 128) (hhigh : n % 64 + 128 ≤ high)
    (hbyte : high < 256) :
    (UInt8.ofNat low ≤ tailByte n && tailByte n ≤ UInt8.ofNat high) = true := by
  rw [Bool.and_eq_true, decide_eq_true_eq, decide_eq_true_eq]
  exact (ofNat_between_iff (by omega) (by omega) hbyte).2 ⟨hlow, hhigh⟩

theorem isTail_tailByte (n : Nat) : isTail (tailByte n) = true :=
  @tailByte_between n 128 191 (by omega) (by omega) (by omega)

theorem pieces_one {n : Nat} (h : n < 128) (rest : List UInt8) :
    pieces (UInt8.ofNat n :: rest) = .char (Char.ofNat n) :: pieces rest := by
  have hone : UInt8.ofNat n < 0x80 := (@ofNat_lt_iff n 128 (by omega) (by omega)).2 h
  rw [pieces.eq_def]
  simp only [if_pos hone, toNat_ofNat_byte (show n < 256 by omega)]

section Lead

variable {lead : Nat} {b c d : UInt8}

theorem not_lead_one (hlow : 128 ≤ lead) (hbyte : lead < 256) : ¬ UInt8.ofNat lead < 0x80 := fun h =>
  Nat.not_le_of_lt ((@ofNat_lt_iff lead 128 hbyte (by omega)).1 h) hlow

theorem not_lead_two (hlow : 223 < lead) (hbyte : lead < 256) :
    ¬ (0xC2 ≤ UInt8.ofNat lead ∧ UInt8.ofNat lead ≤ 0xDF) := fun h =>
  Nat.not_le_of_lt hlow ((@ofNat_between_iff lead 194 223 hbyte (by omega) (by omega)).1 h).2

theorem not_lead_three (hlow : 239 < lead) (hbyte : lead < 256) :
    ¬ (0xE0 ≤ UInt8.ofNat lead ∧ UInt8.ofNat lead ≤ 0xEF) := fun h =>
  Nat.not_le_of_lt hlow ((@ofNat_between_iff lead 224 239 hbyte (by omega) (by omega)).1 h).2

theorem pieces_lead_two (hlow : 194 ≤ lead) (hhigh : lead ≤ 223) (hb : isTail b = true)
    (rest : List UInt8) :
    pieces (UInt8.ofNat lead :: b :: rest) =
      .char (Char.ofNat (lead % 32 * 64 + tailBits b)) :: pieces rest := by
  have hbyte : lead < 256 := by omega
  have hone := not_lead_one (show 128 ≤ lead by omega) hbyte
  have htwo : 0xC2 ≤ UInt8.ofNat lead ∧ UInt8.ofNat lead ≤ 0xDF :=
    (@ofNat_between_iff lead 194 223 hbyte (by omega) (by omega)).2 ⟨hlow, hhigh⟩
  rw [pieces.eq_def]
  simp only [if_neg hone, if_pos htwo, hb, if_true, toNat_ofNat_byte hbyte]

theorem pieces_lead_three (hlow : 224 ≤ lead) (hhigh : lead ≤ 239)
    (hb : isSecondOfThree (UInt8.ofNat lead) b = true) (hc : isTail c = true) (rest : List UInt8) :
    pieces (UInt8.ofNat lead :: b :: c :: rest) =
      .char (Char.ofNat ((lead % 16 * 64 + tailBits b) * 64 + tailBits c)) :: pieces rest := by
  have hbyte : lead < 256 := by omega
  have hone := not_lead_one (show 128 ≤ lead by omega) hbyte
  have htwo := not_lead_two (show 223 < lead by omega) hbyte
  have hthree : 0xE0 ≤ UInt8.ofNat lead ∧ UInt8.ofNat lead ≤ 0xEF :=
    (@ofNat_between_iff lead 224 239 hbyte (by omega) (by omega)).2 ⟨hlow, hhigh⟩
  rw [pieces.eq_def]
  simp only [if_neg hone, if_neg htwo, if_pos hthree, hb, hc, if_true, toNat_ofNat_byte hbyte]

theorem pieces_lead_four (hlow : 240 ≤ lead) (hhigh : lead ≤ 244)
    (hb : isSecondOfFour (UInt8.ofNat lead) b = true) (hc : isTail c = true) (hd : isTail d = true)
    (rest : List UInt8) :
    pieces (UInt8.ofNat lead :: b :: c :: d :: rest) =
      .char (Char.ofNat (((lead % 8 * 64 + tailBits b) * 64 + tailBits c) * 64 + tailBits d)) ::
        pieces rest := by
  have hbyte : lead < 256 := by omega
  have hone := not_lead_one (show 128 ≤ lead by omega) hbyte
  have htwo := not_lead_two (show 223 < lead by omega) hbyte
  have hthree := not_lead_three (show 239 < lead by omega) hbyte
  have hfour : 0xF0 ≤ UInt8.ofNat lead ∧ UInt8.ofNat lead ≤ 0xF4 :=
    (@ofNat_between_iff lead 240 244 hbyte (by omega) (by omega)).2 ⟨hlow, hhigh⟩
  rw [pieces.eq_def]
  simp only [if_neg hone, if_neg htwo, if_neg hthree, if_pos hfour, hb, hc, hd, if_true,
    toNat_ofNat_byte hbyte]

/-- The second byte is within its bounds, which exclude codes that have a shorter encoding and those
that are no characters. -/
theorem isSecond_tailByte {first low last high : UInt8} {m : Nat} (hlead : lead < 256)
    (hlow : lead = first.toNat → low.toNat ≤ m % 64 + 128)
    (hhigh : lead = last.toNat → m % 64 + 128 ≤ high.toNat) :
    isSecond first low last high (UInt8.ofNat lead) (tailByte m) = true := by
  have hbyte : ∀ {byte : UInt8}, (UInt8.ofNat lead == byte) = true → lead = byte.toNat := by
    intro byte h
    rw [← beq_iff_eq.1 h, toNat_ofNat_byte hlead]
  unfold isSecond
  split
  · next h =>
    have hm := hlow (hbyte h)
    rw [← UInt8.ofNat_toNat (x := low)]
    exact @tailByte_between m low.toNat 191 hm (by omega) (by omega)
  · split
    · next h =>
      have hm := hhigh (hbyte h)
      rw [← UInt8.ofNat_toNat (x := high)]
      exact @tailByte_between m 128 high.toNat (by omega) hm high.toNat_lt
    · exact isTail_tailByte m

end Lead

theorem pieces_two {n : Nat} (hlow : 128 ≤ n) (hhigh : n < 2048) (rest : List UInt8) :
    pieces (UInt8.ofNat (n / 64 % 32 + 192) :: tailByte n :: rest) =
      .char (Char.ofNat n) :: pieces rest := by
  have hvalue : (n / 64 % 32 + 192) % 32 * 64 + n % 64 = n := by omega
  rw [pieces_lead_two (by omega) (by omega) (isTail_tailByte n), tailBits_tailByte, hvalue]

theorem pieces_three {n : Nat} (hlow : 2048 ≤ n) (hhigh : n < 65536)
    (hscalar : n < 0xD800 ∨ 0xDFFF < n) (rest : List UInt8) :
    pieces (UInt8.ofNat (n / 4096 % 16 + 224) :: tailByte (n / 64) :: tailByte n :: rest) =
      .char (Char.ofNat n) :: pieces rest := by
  have hsecond : isSecondOfThree (UInt8.ofNat (n / 4096 % 16 + 224)) (tailByte (n / 64)) = true :=
    isSecond_tailByte (by omega) (by simp; omega) (by simp; omega)
  have hvalue : ((n / 4096 % 16 + 224) % 16 * 64 + n / 64 % 64) * 64 + n % 64 = n := by omega
  rw [pieces_lead_three (by omega) (by omega) hsecond (isTail_tailByte n), tailBits_tailByte,
    tailBits_tailByte, hvalue]

theorem pieces_four {n : Nat} (hlow : 65536 ≤ n) (hhigh : n < 0x110000) (rest : List UInt8) :
    pieces (UInt8.ofNat (n / 262144 % 8 + 240) :: tailByte (n / 4096) :: tailByte (n / 64) ::
      tailByte n :: rest) = .char (Char.ofNat n) :: pieces rest := by
  have hsecond : isSecondOfFour (UInt8.ofNat (n / 262144 % 8 + 240)) (tailByte (n / 4096)) = true :=
    isSecond_tailByte (by omega) (by simp; omega) (by simp; omega)
  have hvalue : (((n / 262144 % 8 + 240) % 8 * 64 + n / 4096 % 64) * 64 + n / 64 % 64) * 64 +
      n % 64 = n := by omega
  rw [pieces_lead_four (by omega) (by omega) hsecond (isTail_tailByte (n / 64)) (isTail_tailByte n),
    tailBits_tailByte, tailBits_tailByte, tailBits_tailByte, hvalue]

/-- The bytes of a character are read as that character, whatever follows them. -/
theorem pieces_utf8EncodeChar (c : Char) (rest : List UInt8) :
    pieces (String.utf8EncodeChar c ++ rest) = .char c :: pieces rest := by
  have hvalid : c.toNat < 0xD800 ∨ 0xDFFF < c.toNat ∧ c.toNat < 0x110000 := c.valid
  have hone := @pieces_one c.toNat
  have htwo := @pieces_two c.toNat
  have hthree := @pieces_three c.toNat
  have hfour := @pieces_four c.toNat
  rw [Char.ofNat_toNat] at hone htwo hthree hfour
  simp only [String.utf8EncodeChar, Char.toNat_val]
  split
  · exact hone (by omega) rest
  · split
    · exact htwo (by omega) (by omega) rest
    · split
      · exact hthree (by omega) (by omega) (by omega) rest
      · exact hfour (by omega) (by omega) rest

theorem pieces_flatMap_append (chars : List Char) (rest : List UInt8) :
    pieces (chars.flatMap String.utf8EncodeChar ++ rest) = chars.map .char ++ pieces rest := by
  induction chars with
  | nil => rfl
  | cons c chars ih =>
    rw [List.flatMap_cons, List.append_assoc, pieces_utf8EncodeChar, ih, List.map_cons,
      List.cons_append]

/-- Text is read back from its bytes as it was. -/
theorem decode?_encode (text : String) : decode? (encode text) = some text := by
  have hpieces := pieces_flatMap_append text.toList []
  have hall : ∀ chars : List Char, (chars.map Piece.char).mapM Piece.char? = some chars := by
    intro chars
    induction chars with
    | nil => rfl
    | cons c chars ih => simp [Piece.char?, ih]
  rw [List.append_nil, pieces, List.append_nil] at hpieces
  rw [decode?, encode, hpieces, hall, Option.map_some, String.ofList_toList]

/-- Only a character of one byte has a byte below 128 in its encoding. -/
theorem toNat_eq_of_mem_utf8EncodeChar {c : Char} {b : UInt8} (h : b ∈ String.utf8EncodeChar c)
    (hb : b.toNat < 128) : c.toNat = b.toNat := by
  have hlarge : ∀ {n low : Nat}, low + n < 256 → 128 ≤ low → UInt8.ofNat (n + low) ≠ b := by
    rintro n low hn hlow rfl
    rw [toNat_ofNat_byte (by omega)] at hb
    omega
  simp only [String.utf8EncodeChar, Char.toNat_val] at h
  split at h
  · rw [List.mem_singleton.1 h, toNat_ofNat_byte (by omega)]
  · exfalso
    split at h
    · simp only [List.mem_cons, List.not_mem_nil, or_false] at h
      rcases h with h | h <;> exact hlarge (by omega) (by omega) h.symm
    · split at h
      · simp only [List.mem_cons, List.not_mem_nil, or_false] at h
        rcases h with h | h | h <;> exact hlarge (by omega) (by omega) h.symm
      · simp only [List.mem_cons, List.not_mem_nil, or_false] at h
        rcases h with h | h | h | h <;> exact hlarge (by omega) (by omega) h.symm

theorem exists_char_of_mem_encode {text : String} {b : UInt8} (h : b ∈ encode text)
    (hb : b.toNat < 128) : ∃ c ∈ text.toList, c.toNat = b.toNat := by
  obtain ⟨c, hc, hbyte⟩ := List.mem_flatMap.1 h
  exact ⟨c, hc, toNat_eq_of_mem_utf8EncodeChar hbyte hb⟩

theorem ofNat_eq_of_toNat {n : Nat} {b : UInt8} (h : n = b.toNat) : UInt8.ofNat n = b := by
  rw [h, UInt8.ofNat_toNat]

theorem toNat_between {low high b : UInt8} (h : (low ≤ b && b ≤ high) = true) :
    low.toNat ≤ b.toNat ∧ b.toNat ≤ high.toNat := by
  rw [Bool.and_eq_true, decide_eq_true_eq, decide_eq_true_eq] at h
  exact h

theorem toNat_of_isTail {b : UInt8} (h : isTail b = true) : 128 ≤ b.toNat ∧ b.toNat ≤ 191 :=
  toNat_between h

theorem toNat_of_isSecond {first low last high a b : UInt8} (hlow : 128 ≤ low.toNat)
    (hhigh : high.toNat ≤ 191) (hne : first ≠ last)
    (h : isSecond first low last high a b = true) :
    128 ≤ b.toNat ∧ b.toNat ≤ 191 ∧ (a.toNat = first.toNat → low.toNat ≤ b.toNat) ∧
      (a.toNat = last.toNat → b.toNat ≤ high.toNat) := by
  rw [UInt8.toNat_inj, UInt8.toNat_inj]
  unfold isSecond at h
  split at h
  · next hfirst =>
    obtain rfl := beq_iff_eq.1 hfirst
    have hb : low.toNat ≤ b.toNat ∧ b.toNat ≤ 191 := toNat_between h
    exact ⟨Nat.le_trans hlow hb.1, hb.2, fun _ => hb.1, fun hlast => absurd hlast hne⟩
  · next hfirst =>
    have hother : a ≠ first := fun heq => hfirst (beq_iff_eq.2 heq)
    split at h
    · have hb : 128 ≤ b.toNat ∧ b.toNat ≤ high.toNat := toNat_between h
      exact ⟨hb.1, Nat.le_trans hb.2 hhigh, fun heq => absurd heq hother, fun _ => hb.2⟩
    · next hlast =>
      have hb := toNat_of_isTail h
      exact ⟨hb.1, hb.2, fun heq => absurd heq hother, fun heq => absurd (beq_iff_eq.2 heq) hlast⟩

/-- The bytes of the character with a code. -/
theorem utf8EncodeChar_ofNat {n : Nat} (h : n < 0xD800 ∨ 0xDFFF < n ∧ n < 0x110000) :
    String.utf8EncodeChar (Char.ofNat n) =
      if n ≤ 0x7F then [UInt8.ofNat n]
      else if n ≤ 0x7FF then [UInt8.ofNat (n / 64 % 32 + 192), tailByte n]
      else if n ≤ 0xFFFF then [UInt8.ofNat (n / 4096 % 16 + 224), tailByte (n / 64), tailByte n]
      else [UInt8.ofNat (n / 262144 % 8 + 240), tailByte (n / 4096), tailByte (n / 64), tailByte n] := by
  have hvalid : n.isValidChar := h
  have hvalue : (Char.ofNat n).toNat = n := by
    rw [Char.ofNat, dif_pos hvalid]
    rfl
  simp only [String.utf8EncodeChar, Char.toNat_val, hvalue]
  rfl

theorem utf8EncodeChar_one {a : UInt8} (ha : a < 0x80) :
    String.utf8EncodeChar (Char.ofNat a.toNat) = [a] := by
  have hbyte : a.toNat < 128 := ha
  rw [utf8EncodeChar_ofNat (by omega), if_pos (by omega), UInt8.ofNat_toNat]

theorem utf8EncodeChar_two {a b : UInt8} (ha : 0xC2 ≤ a ∧ a ≤ 0xDF) (hb : isTail b = true) :
    String.utf8EncodeChar (Char.ofNat (a.toNat % 32 * 64 + tailBits b)) = [a, b] := by
  have hlead : 194 ≤ a.toNat ∧ a.toNat ≤ 223 := ha
  have htail := toNat_of_isTail hb
  unfold tailBits
  rw [utf8EncodeChar_ofNat (by omega), if_neg (by omega), if_pos (by omega)]
  unfold tailByte
  rw [ofNat_eq_of_toNat (b := a) (by omega), ofNat_eq_of_toNat (b := b) (by omega)]

theorem utf8EncodeChar_three {a b c : UInt8} (ha : 0xE0 ≤ a ∧ a ≤ 0xEF)
    (hb : isSecondOfThree a b = true) (hc : isTail c = true) :
    String.utf8EncodeChar (Char.ofNat ((a.toNat % 16 * 64 + tailBits b) * 64 + tailBits c)) =
      [a, b, c] := by
  have hlead : 224 ≤ a.toNat ∧ a.toNat ≤ 239 := ha
  have hsecond : 128 ≤ b.toNat ∧ b.toNat ≤ 191 ∧ (a.toNat = 224 → 160 ≤ b.toNat) ∧
      (a.toNat = 237 → b.toNat ≤ 159) := toNat_of_isSecond (by decide) (by decide) (by decide) hb
  have htail := toNat_of_isTail hc
  unfold tailBits
  rw [utf8EncodeChar_ofNat (by omega), if_neg (by omega), if_neg (by omega), if_pos (by omega)]
  unfold tailByte
  rw [ofNat_eq_of_toNat (b := a) (by omega), ofNat_eq_of_toNat (b := b) (by omega),
    ofNat_eq_of_toNat (b := c) (by omega)]

theorem utf8EncodeChar_four {a b c d : UInt8} (ha : 0xF0 ≤ a ∧ a ≤ 0xF4)
    (hb : isSecondOfFour a b = true) (hc : isTail c = true) (hd : isTail d = true) :
    String.utf8EncodeChar (Char.ofNat
      (((a.toNat % 8 * 64 + tailBits b) * 64 + tailBits c) * 64 + tailBits d)) = [a, b, c, d] := by
  have hlead : 240 ≤ a.toNat ∧ a.toNat ≤ 244 := ha
  have hsecond : 128 ≤ b.toNat ∧ b.toNat ≤ 191 ∧ (a.toNat = 240 → 144 ≤ b.toNat) ∧
      (a.toNat = 244 → b.toNat ≤ 143) := toNat_of_isSecond (by decide) (by decide) (by decide) hb
  have hthird := toNat_of_isTail hc
  have htail := toNat_of_isTail hd
  unfold tailBits
  rw [utf8EncodeChar_ofNat (by omega), if_neg (by omega), if_neg (by omega), if_neg (by omega)]
  unfold tailByte
  rw [ofNat_eq_of_toNat (b := a) (by omega), ofNat_eq_of_toNat (b := b) (by omega),
    ofNat_eq_of_toNat (b := c) (by omega), ofNat_eq_of_toNat (b := d) (by omega)]

/-- Bytes that are all characters are the bytes of those. -/
theorem flatMap_of_pieces {bytes : List UInt8} {chars : List Char}
    (h : pieces bytes = chars.map .char) : chars.flatMap String.utf8EncodeChar = bytes := by
  have hfault : ∀ {more : List Piece} {others : List Char}, .fault :: more ≠ others.map .char := by
    intro more others heq
    obtain ⟨_, _, _, hpiece, _⟩ := List.map_eq_cons_iff.1 heq.symm
    cases hpiece
  have hchar : ∀ {c : Char} {front rest : List UInt8} {others : List Char},
      String.utf8EncodeChar c = front → .char c :: pieces rest = others.map .char →
        (∀ {chars : List Char}, pieces rest = chars.map .char →
          chars.flatMap String.utf8EncodeChar = rest) →
            others.flatMap String.utf8EncodeChar = front ++ rest := by
    intro c front rest others hfront heq ih
    obtain ⟨_, later, rfl, hpiece, hlater⟩ := List.map_eq_cons_iff.1 heq.symm
    cases hpiece
    rw [List.flatMap_cons, hfront, ih hlater.symm]
  fun_induction pieces bytes generalizing chars with
  | case1 => rw [List.map_eq_nil_iff.1 h.symm, List.flatMap_nil]
  | case2 a rest ha ih => exact hchar (utf8EncodeChar_one ha) h ih
  | case4 a _ ha b rest hb ih => exact hchar (utf8EncodeChar_two ha hb) h ih
  | case8 a _ _ ha b hb c rest hc ih => exact hchar (utf8EncodeChar_three ha hb hc) h ih
  | case14 a _ _ _ ha b hb c hc d rest hd ih => exact hchar (utf8EncodeChar_four ha hb hc hd) h ih
  | case3 | case5 | case6 | case7 | case9 | case10 | case11 | case12 | case13 | case15 | case16
  | case17 | case18 => exact absurd h hfault

/-- Decoding succeeds only without a single fault. -/
theorem pieces_of_mapM {all : List Piece} {chars : List Char}
    (h : all.mapM Piece.char? = some chars) : all = chars.map .char := by
  induction all generalizing chars with
  | nil =>
    cases h
    rfl
  | cons piece rest ih =>
    cases piece with
    | fault => simp [Piece.char?] at h
    | char c =>
      simp only [List.mapM_cons, Piece.char?, Option.bind_eq_bind, Option.bind_some,
        Option.bind_eq_some_iff] at h
      obtain ⟨later, hlater, heq⟩ := h
      cases heq
      rw [List.map_cons, ih hlater]

/-- Bytes that are a text are the bytes of that text. -/
theorem encode_of_decode? {bytes : List UInt8} {text : String} (h : decode? bytes = some text) :
    encode text = bytes := by
  obtain ⟨chars, hchars, rfl⟩ := Option.map_eq_some_iff.1 h
  rw [encode, String.toList_ofList, flatMap_of_pieces (pieces_of_mapM hchars)]

theorem decodeLossy_encode_append (text : String) (rest : List UInt8) :
    decodeLossy (encode text ++ rest) = text ++ decodeLossy rest := by
  rw [decodeLossy, encode, pieces_flatMap_append, List.map_append, List.map_map,
    String.ofList_append, decodeLossy]
  have hshown : text.toList.map (Piece.shown ∘ Piece.char) = text.toList := List.map_id _
  rw [hshown, String.ofList_toList]

/-- Lenient decoding finds no fault in a text. -/
theorem decodeLossy_encode (text : String) : decodeLossy (encode text) = text := by
  have h := decodeLossy_encode_append text []
  rwa [List.append_nil, show decodeLossy [] = "" from rfl, String.append_empty] at h

/-- A first byte alone is no character. -/
theorem pieces_cut_one {a : UInt8} (ha : ¬ a < 0x80) : pieces [a] = [.fault] := by
  rw [pieces.eq_def]
  simp only [if_neg ha]
  split
  · rfl
  · split
    · rfl
    · split <;> rfl

section Cut

variable {lead : Nat} {b c : UInt8}

theorem pieces_cut_three (hlow : 224 ≤ lead) (hhigh : lead ≤ 239)
    (hb : isSecondOfThree (UInt8.ofNat lead) b = true) :
    pieces [UInt8.ofNat lead, b] = [.fault] := by
  have hbyte : lead < 256 := by omega
  have hthree : 0xE0 ≤ UInt8.ofNat lead ∧ UInt8.ofNat lead ≤ 0xEF :=
    (@ofNat_between_iff lead 224 239 hbyte (by omega) (by omega)).2 ⟨hlow, hhigh⟩
  rw [pieces.eq_def]
  simp only [if_neg (not_lead_one (show 128 ≤ lead by omega) hbyte),
    if_neg (not_lead_two (show 223 < lead by omega) hbyte), if_pos hthree, hb, if_true]

theorem pieces_cut_four (hlow : 240 ≤ lead) (hhigh : lead ≤ 244)
    (hb : isSecondOfFour (UInt8.ofNat lead) b = true) (hc : isTail c = true) :
    pieces [UInt8.ofNat lead, b] = [.fault] ∧ pieces [UInt8.ofNat lead, b, c] = [.fault] := by
  have hbyte : lead < 256 := by omega
  have hfour : 0xF0 ≤ UInt8.ofNat lead ∧ UInt8.ofNat lead ≤ 0xF4 :=
    (@ofNat_between_iff lead 240 244 hbyte (by omega) (by omega)).2 ⟨hlow, hhigh⟩
  rw [pieces.eq_def, pieces.eq_def]
  simp only [if_neg (not_lead_one (show 128 ≤ lead by omega) hbyte),
    if_neg (not_lead_two (show 223 < lead by omega) hbyte),
    if_neg (not_lead_three (show 239 < lead by omega) hbyte), if_pos hfour, hb, hc, if_true,
    and_self]

end Cut

/-- A character that is cut off is read as one fault. -/
theorem pieces_take_utf8EncodeChar {c : Char} {n : Nat} (hn : 0 < n)
    (h : n < (String.utf8EncodeChar c).length) :
    pieces ((String.utf8EncodeChar c).take n) = [.fault] := by
  have hvalid : c.toNat < 0xD800 ∨ 0xDFFF < c.toNat ∧ c.toNat < 0x110000 := c.valid
  have hfirst : ∀ {lead : Nat} {rest : List UInt8}, 128 ≤ lead → lead < 256 →
      pieces ((UInt8.ofNat lead :: rest).take 1) = [.fault] :=
    fun hlow hbyte => pieces_cut_one (not_lead_one hlow hbyte)
  have hencode := utf8EncodeChar_ofNat hvalid
  rw [Char.ofNat_toNat] at hencode
  revert h
  rw [hencode]
  split
  · exact fun h => absurd h (Nat.not_lt.2 hn)
  · split
    · intro h
      obtain rfl : n = 1 := by simp only [List.length_cons, List.length_nil] at h; omega
      exact @hfirst (c.toNat / 64 % 32 + 192) _ (by omega) (by omega)
    · split
      · intro h
        have hsecond : isSecondOfThree (UInt8.ofNat (c.toNat / 4096 % 16 + 224))
            (tailByte (c.toNat / 64)) = true :=
          isSecond_tailByte (by omega) (by simp; omega) (by simp; omega)
        obtain rfl | rfl : n = 1 ∨ n = 2 := by
          simp only [List.length_cons, List.length_nil] at h; omega
        · exact @hfirst (c.toNat / 4096 % 16 + 224) _ (by omega) (by omega)
        · exact pieces_cut_three (by omega) (by omega) hsecond
      · intro h
        have hsecond : isSecondOfFour (UInt8.ofNat (c.toNat / 262144 % 8 + 240))
            (tailByte (c.toNat / 4096)) = true :=
          isSecond_tailByte (by omega) (by simp; omega) (by simp; omega)
        have hcut := pieces_cut_four (by omega) (by omega) hsecond (isTail_tailByte (c.toNat / 64))
        obtain rfl | rfl | rfl : n = 1 ∨ n = 2 ∨ n = 3 := by
          simp only [List.length_cons, List.length_nil] at h; omega
        · exact @hfirst (c.toNat / 262144 % 8 + 240) _ (by omega) (by omega)
        · exact hcut.1
        · exact hcut.2

theorem decodeLossy_ne_empty {bytes : List UInt8} (h : bytes ≠ []) : decodeLossy bytes ≠ "" := by
  intro hempty
  have hshown : (pieces bytes).map Piece.shown = [] := by
    rw [← String.toList_ofList (l := (pieces bytes).map Piece.shown)]
    exact congrArg String.toList hempty
  exact h (@flatMap_of_pieces bytes [] (List.map_eq_nil_iff.1 hshown)).symm

/-- What is read of a text that is cut off: some of its characters, and a replacement character if
one was cut apart. -/
theorem mem_decodeLossy_take {text : String} {n : Nat} {c : Char}
    (h : c ∈ (decodeLossy ((encode text).take n)).toList) :
    c ∈ text.toList ∨ c = Char.ofNat 0xFFFD := by
  have hchars : ∀ (chars : List Char) (n : Nat),
      ∀ piece ∈ pieces ((chars.flatMap String.utf8EncodeChar).take n),
        piece.shown ∈ chars ∨ piece = .fault := by
    intro chars
    induction chars with
    | nil => simp [pieces]
    | cons first rest ih =>
      intro n piece hmem
      rw [List.flatMap_cons, List.take_append] at hmem
      obtain hshort | hlong := Nat.lt_or_ge n (String.utf8EncodeChar first).length
      · have hnone : n - (String.utf8EncodeChar first).length = 0 := by omega
        rw [hnone, List.take_zero, List.append_nil] at hmem
        obtain rfl | hn := Nat.eq_zero_or_pos n
        · cases hmem
        · rw [pieces_take_utf8EncodeChar hn hshort] at hmem
          exact .inr (List.mem_singleton.1 hmem)
      · rw [List.take_of_length_le hlong, pieces_utf8EncodeChar] at hmem
        obtain rfl | hmem := List.mem_cons.1 hmem
        · exact .inl List.mem_cons_self
        · exact (ih _ piece hmem).imp (List.mem_cons_of_mem first) id
  rw [decodeLossy, String.toList_ofList] at h
  obtain ⟨piece, hpiece, rfl⟩ := List.mem_map.1 h
  obtain hmem | rfl := hchars text.toList n piece hpiece
  · exact .inl hmem
  · exact .inr rfl

end BrokerCluster.Text
