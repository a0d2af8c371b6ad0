/-!
# UTF-8

Bytes are cut into scalar values and faults. A fault is a maximal run of bytes
that could begin a scalar value but does not, so strict decoding refuses any
fault and lenient decoding writes one replacement character for each.
-/
namespace BrokerCluster.Text

/-- What one stretch of bytes stands for. -/
inductive Piece where
  /-- A well-formed encoding of this character. -/
  | char (c : Char)
  /-- Bytes that encode nothing. -/
  | fault
  deriving DecidableEq, Repr

def isTail (b : UInt8) : Bool := 0x80 ≤ b && b ≤ 0xBF

/-- Whether `b` may come second after the byte `lead`: after `first` it is at least `low`, after `last`
at most `high`. -/
def isSecond (first low last high lead b : UInt8) : Bool :=
  if lead == first then low ≤ b && b ≤ 0xBF
  else if lead == last then 0x80 ≤ b && b ≤ high
  else isTail b

/-- The second byte of three: no overlong form, no surrogate. -/
def isSecondOfThree (lead b : UInt8) : Bool := isSecond 0xE0 0xA0 0xED 0x9F lead b

/-- The second byte of four: no overlong form, nothing above 10FFFF. -/
def isSecondOfFour (lead b : UInt8) : Bool := isSecond 0xF0 0x90 0xF4 0x8F lead b

/-- The payload bits of a continuation byte. -/
def tailBits (b : UInt8) : Nat := b.toNat % 64

/-- Cuts bytes into characters and faults. -/
def pieces : List UInt8 → List Piece
  | [] => []
  | a :: rest =>
    if a < 0x80 then .char (Char.ofNat a.toNat) :: pieces rest
    else if 0xC2 ≤ a ∧ a ≤ 0xDF then
      match rest with
      | [] => [.fault]
      | b :: rest₁ =>
        if isTail b then .char (Char.ofNat (a.toNat % 32 * 64 + tailBits b)) :: pieces rest₁
        else .fault :: pieces (b :: rest₁)
    else if 0xE0 ≤ a ∧ a ≤ 0xEF then
      match rest with
      | [] => [.fault]
      | b :: rest₁ =>
        if isSecondOfThree a b then
          match rest₁ with
          | [] => [.fault]
          | c :: rest₂ =>
            if isTail c then
              .char (Char.ofNat ((a.toNat % 16 * 64 + tailBits b) * 64 + tailBits c)) :: pieces rest₂
            else .fault :: pieces (c :: rest₂)
        else .fault :: pieces (b :: rest₁)
    else if 0xF0 ≤ a ∧ a ≤ 0xF4 then
      match rest with
      | [] => [.fault]
      | b :: rest₁ =>
        if isSecondOfFour a b then
          match rest₁ with
          | [] => [.fault]
          | c :: rest₂ =>
            if isTail c then
              match rest₂ with
              | [] => [.fault]
              | d :: rest₃ =>
                if isTail d then
                  .char (Char.ofNat
                    (((a.toNat % 8 * 64 + tailBits b) * 64 + tailBits c) * 64 + tailBits d)) ::
                    pieces rest₃
                else .fault :: pieces (d :: rest₃)
            else .fault :: pieces (c :: rest₂)
        else .fault :: pieces (b :: rest₁)
    else .fault :: pieces rest

def Piece.char? : Piece → Option Char
  | .char c => some c
  | .fault => none

/-- The character written for a piece: the replacement character stands for a fault. -/
def Piece.shown : Piece → Char
  | .char c => c
  | .fault => Char.ofNat 0xFFFD

/-- The text that bytes encode, if every byte belongs to some character. -/
def decode? (bytes : List UInt8) : Option String :=
  ((pieces bytes).mapM Piece.char?).map String.ofList

/-- The text that bytes encode, with a replacement character for each fault. -/
def decodeLossy (bytes : List UInt8) : String :=
  String.ofList ((pieces bytes).map Piece.shown)

def encode (text : String) : List UInt8 := text.toList.flatMap String.utf8EncodeChar

theorem encode_append (s t : String) : encode (s ++ t) = encode s ++ encode t := by
  simp [encode]

end BrokerCluster.Text
