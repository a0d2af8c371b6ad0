import BrokerCluster.Proofs.Text.Utf8

/-!
# Texts and bytes in order

Texts are compared character by character, and their bytes byte by byte. Both give the same
order: the first byte of a character grows with its code, and the bytes after it carry the
rest of the code, the highest bits first.
-/
namespace BrokerCluster.Text

theorem ofNat_cons_lt_iff {n m : Nat} (hn : n < 256) (hm : m < 256) {xs ys : List UInt8} :
    UInt8.ofNat n :: xs < UInt8.ofNat m :: ys ↔ n < m ∨ n = m ∧ xs < ys := by
  rw [List.cons_lt_cons_iff, ofNat_lt_iff hn hm, ← beq_iff_eq, ofNat_eq_iff hn hm]

/-- The bytes that carry the last `count` groups of six bits of a code. -/
def tailBytes (n : Nat) : (count : Nat) → List UInt8
  | 0 => []
  | count + 1 => tailBytes (n / 64) count ++ [tailByte n]

/-- What a code has before its last `count` groups of six bits. -/
def leadBits (n : Nat) : (count : Nat) → Nat
  | 0 => n
  | count + 1 => leadBits (n / 64) count

/-- Codes that agree before their last groups are ordered by these. -/
theorem tailBytes_append_lt {n m : Nat} (h : n < m) {count : Nat}
    (hlead : leadBits n count = leadBits m count) (xs ys : List UInt8) :
    tailBytes n count ++ xs < tailBytes m count ++ ys := by
  induction count generalizing n m xs ys with
  | zero => exact absurd hlead (Nat.ne_of_lt h)
  | succ count ih =>
    rw [tailBytes, tailBytes, List.append_assoc, List.append_assoc]
    obtain hlt | heq := Nat.lt_or_eq_of_le (Nat.div_le_div_right (c := 64) (Nat.le_of_lt h))
    · exact ih hlt hlead _ _
    · rw [heq]
      exact List.append_left_lt ((ofNat_cons_lt_iff (by omega) (by omega)).2 (.inl (by omega)))

def tailCount (n : Nat) : Nat :=
  if n ≤ 127 then 0 else if n ≤ 2047 then 1 else if n ≤ 65535 then 2 else 3

def leadByte (n : Nat) : Nat :=
  if n ≤ 127 then n
  else if n ≤ 2047 then n / 64 + 192
  else if n ≤ 65535 then n / 4096 + 224
  else n / 262144 + 240

theorem utf8EncodeChar_eq (c : Char) : String.utf8EncodeChar c =
    UInt8.ofNat (leadByte c.toNat) :: tailBytes c.toNat (tailCount c.toNat) := by
  have hvalid : c.toNat < 0xD800 ∨ 0xDFFF < c.toNat ∧ c.toNat < 0x110000 := c.valid
  simp only [String.utf8EncodeChar, Char.toNat_val, leadByte, tailCount]
  generalize c.toNat = n at hvalid
  by_cases hone : n ≤ 127
  · simp only [if_pos hone, tailBytes]
  · by_cases htwo : n ≤ 2047
    · have hlead : n / 64 % 32 = n / 64 := by omega
      simp [hone, htwo, hlead, tailBytes, tailByte]
    · by_cases hthree : n ≤ 65535
      · have hlead : n / 4096 % 16 = n / 4096 := by omega
        simp [hone, htwo, hthree, hlead, tailBytes, tailByte]
      · have hlead : n / 262144 % 8 = n / 262144 := by omega
        simp [hone, htwo, hthree, hlead, tailBytes, tailByte, Nat.div_div_eq_div_mul]

theorem leadByte_lt {n : Nat} (h : n < 0x110000) : leadByte n < 256 := by
  unfold leadByte
  repeat' split
  all_goals omega

/-- The first byte grows with the code, and codes that share it differ in the groups after it. -/
theorem leadByte_lt_or_eq {n m : Nat} (h : n < m) : leadByte n < leadByte m ∨
    leadByte n = leadByte m ∧ tailCount n = tailCount m ∧
      leadBits n (tailCount n) = leadBits m (tailCount n) := by
  unfold leadByte tailCount
  repeat' split
  all_goals simp [leadBits]
  all_goals omega

/-- Of two characters the one with the smaller code has the smaller bytes, whatever follows them. -/
theorem utf8EncodeChar_append_lt {c d : Char} (h : c < d) (xs ys : List UInt8) :
    String.utf8EncodeChar c ++ xs < String.utf8EncodeChar d ++ ys := by
  have hcode : c.toNat < d.toNat := h
  have hvalid : d.toNat < 0xD800 ∨ 0xDFFF < d.toNat ∧ d.toNat < 0x110000 := d.valid
  rw [utf8EncodeChar_eq, utf8EncodeChar_eq, List.cons_append, List.cons_append]
  refine (ofNat_cons_lt_iff (leadByte_lt (by omega)) (leadByte_lt (by omega))).2 ?_
  obtain hlt | ⟨heq, hcount, hlead⟩ := leadByte_lt_or_eq hcode
  · exact .inl hlt
  · exact .inr ⟨heq, hcount ▸ tailBytes_append_lt hcode hlead xs ys⟩

/-- The first characters that differ decide, and so do the first bytes of these that differ. -/
theorem flatMap_utf8EncodeChar_lt {cs ds : List Char} (h : cs < ds) :
    cs.flatMap String.utf8EncodeChar < ds.flatMap String.utf8EncodeChar := by
  induction cs generalizing ds with
  | nil =>
    cases ds with
    | nil => exact absurd h (List.lt_irrefl [])
    | cons d ds =>
      rw [List.flatMap_nil, List.flatMap_cons, utf8EncodeChar_eq]
      exact List.nil_lt_cons _ _
  | cons c cs ih =>
    cases ds with
    | nil => exact absurd h (List.not_lt_nil _)
    | cons d ds =>
      rw [List.flatMap_cons, List.flatMap_cons]
      obtain hlt | ⟨rfl, hrest⟩ := List.cons_lt_cons_iff.1 h
      · exact utf8EncodeChar_append_lt hlt _ _
      · exact List.append_left_lt (ih hrest)

/-- The order of texts is the order of their bytes. -/
theorem encode_lt_encode_iff {first second : String} :
    encode first < encode second ↔ first < second := by
  refine ⟨fun h => ?_, fun h => flatMap_utf8EncodeChar_lt h⟩
  rcases Std.lt_trichotomy first second with hlt | rfl | hgt
  · exact hlt
  · exact absurd h (List.lt_irrefl _)
  · exact absurd (flatMap_utf8EncodeChar_lt hgt) (List.lt_asymm h)

end BrokerCluster.Text
