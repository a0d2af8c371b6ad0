/-!
# Digits in a base

Numbers written with the digits of a base of at most sixteen, and the characters
that such numbers name by their code points.
-/
namespace BrokerCluster.Text

/-- The value of a digit in a base of at most sixteen. -/
def baseDigit? (base : Nat) (c : Char) : Option Nat :=
  let digit :=
    if '0' ≤ c ∧ c ≤ '9' then some (c.toNat - '0'.toNat)
    else if 'a' ≤ c ∧ c ≤ 'f' then some (c.toNat - 'a'.toNat + 10)
    else if 'A' ≤ c ∧ c ≤ 'F' then some (c.toNat - 'A'.toNat + 10)
    else none
  digit.filter (· < base)

/-- A non-empty run of digits in a base. -/
def baseNumber? (base : Nat) : List Char → Option Nat
  | [] => none
  | digits =>
    digits.foldlM (fun value c => (baseDigit? base c).map fun d => base * value + d) 0

/-- A number of exactly `n` digits at the start of a text, and the text after it. -/
def fixedNumber? (base n : Nat) (text : List Char) : Option (Nat × List Char) :=
  let digits := text.take n
  if digits.length = n then (baseNumber? base digits).map fun value => (value, text.drop n)
  else none

/-- The character with this code point, unless that is a surrogate or too large. -/
def scalar? (n : Nat) : Option Char :=
  if n < 0xD800 ∨ (0xE000 ≤ n ∧ n < 0x110000) then some (Char.ofNat n) else none

end BrokerCluster.Text
