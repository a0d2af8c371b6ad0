/-!
# Whole numbers in text

A number is an optional sign and at least one ASCII digit, with nothing around
it; leading zeros are allowed and a minus sign is no part of an unsigned number.
A number outside the range of its type is no number of that type.
-/
namespace BrokerCluster.Text

def digit? (c : Char) : Option Nat :=
  if '0' ≤ c ∧ c ≤ '9' then some (c.toNat - '0'.toNat) else none

/-- Digits read after a value that earlier digits gave. -/
def digitsAfter (value : Nat) : List Char → Option Nat
  | [] => some value
  | c :: rest => (digit? c).bind fun d => digitsAfter (10 * value + d) rest

/-- The value of a non-empty run of ASCII digits. -/
def natural? : List Char → Option Nat
  | [] => none
  | digits => digitsAfter 0 digits

/-- A natural number with an optional plus sign. -/
def unsigned? : List Char → Option Nat
  | '+' :: digits => natural? digits
  | digits => natural? digits

/-- An integer with an optional sign. -/
def integer? : List Char → Option Int
  | '+' :: digits => (natural? digits).map Int.ofNat
  | '-' :: digits => (natural? digits).map fun n => -Int.ofNat n
  | digits => (natural? digits).map Int.ofNat

/-- The 64-bit signed number with this value, if there is one. -/
def int64OfInt? (n : Int) : Option Int64 :=
  if Int64.minValue.toInt ≤ n ∧ n ≤ Int64.maxValue.toInt then some (Int64.ofInt n) else none

def uint16OfInt? (n : Int) : Option UInt16 :=
  if 0 ≤ n ∧ n.toNat < UInt16.size then some (UInt16.ofNat n.toNat) else none

def uint64OfInt? (n : Int) : Option UInt64 :=
  if 0 ≤ n ∧ n.toNat < UInt64.size then some (UInt64.ofNat n.toNat) else none

def readInt64? (text : String) : Option Int64 := (integer? text.toList).bind int64OfInt?

def readUInt16? (text : String) : Option UInt16 :=
  (unsigned? text.toList).bind fun n => uint16OfInt? n

def readUInt64? (text : String) : Option UInt64 :=
  (unsigned? text.toList).bind fun n => uint64OfInt? n

/-- Why a text is no unsigned number of a type. -/
inductive NumberFault where
  | empty
  | invalidDigit
  | tooLarge
  deriving DecidableEq, Repr

def NumberFault.message : NumberFault → String
  | empty => "cannot parse integer from empty string"
  | invalidDigit => "invalid digit found in string"
  | tooLarge => "number too large to fit in target type"

/-- What makes digits no number below `bound`, given the value of the digits before them. The fault
that is met first counts. -/
def faultAfter (bound value : Nat) : List Char → Option NumberFault
  | [] => none
  | c :: rest =>
    match digit? c with
    | none => some .invalidDigit
    | some d =>
      if bound ≤ 10 * value + d then some .tooLarge else faultAfter bound (10 * value + d) rest

/-- What makes a text no unsigned number below `bound`. -/
def unsignedFault? (bound : Nat) (text : String) : Option NumberFault :=
  match text.toList with
  | [] => some .empty
  | ['+'] => some .invalidDigit
  | '+' :: digits => faultAfter bound 0 digits
  | digits => faultAfter bound 0 digits

/-- The decimal text of a 64-bit signed number: a minus sign if it is negative, no leading zeros. -/
def int64Text (n : Int64) : String := toString n.toInt

theorem natural?_cons (c : Char) (rest : List Char) :
    natural? (c :: rest) = digitsAfter 0 (c :: rest) := rfl

end BrokerCluster.Text
